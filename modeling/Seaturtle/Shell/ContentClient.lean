import Seaturtle.Net.Delegate

/-! What content asks the browser: file access, cookies, the location, and
certificate errors, each attributed to a shell that may be gone. -/
namespace Seaturtle

/-- `content::ResourceType`, as far as the code distinguishes its values. -/
inductive ResourceType where
  | mainFrame
  | subResource (type : Nat)
  deriving DecidableEq

inductive CertificateRequestResultType where
  | continue
  | cancel
  | deny
  deriving DecidableEq

/-- `net::SSLInfo`: no certificate, or one with what `GetDEREncoded` makes of it. -/
structure SslInfo where
  cert : Option (Option Str) := none
  deriving DecidableEq

/-- The `jni::CertificateError` message. -/
structure CertificateError where
  nativeCallback : Nat
  renderProcessId : Int
  renderFrameId : Int
  certError : Int
  url : Str
  derEncodedCert : Str := []
  deriving DecidableEq

structure CertificateErrorResponse where
  nativeCallback : Nat
  allow : Bool
  deriving DecidableEq

/-- A certificate callback, by the number of the call it was given to. -/
abbrev AceCb := Nat

/-- The arguments of `AllowCertificateError`, but for its callback. -/
structure CertificateFailure where
  renderProcessId : Int
  renderFrameId : Int
  certError : Int
  sslInfo : SslInfo
  requestUrl : Gurl
  resourceType : ResourceType
  overridable : Bool
  strictEnforcement : Bool
  expiredPreviousDecision : Bool
  deriving DecidableEq

inductive HandlerFatal where
  /-- A member is called on a null `Shell`. -/
  | nullShell
  | derEncoding
  | rewriter (e : Https.Fatal)
  deriving DecidableEq

/-- What a call of `AllowCertificateError` leaves behind: `*result` where it was set,
the message to Java, and what ended the process, if anything did. -/
structure CertificateDecision where
  result : Option CertificateRequestResultType := none
  message : Option CertificateError := none
  browser : Browser
  fatal : Option HandlerFatal := none
  deriving DecidableEq

/-- `RenderFrameHost::FromID` followed by `WebContents::FromRenderFrameHost`. -/
abbrev RenderFrames := Int → Int → Option Nat

namespace Browser

def forRenderProcessAndFrame (b : Browser) (renderFrames : RenderFrames)
    (renderProcessId renderFrameId : Int) : Option Shell :=
  (renderFrames renderProcessId renderFrameId).bind b.forWebContents

/-- `if (shell) shell->LogEvent(..)`. -/
def logEventIfFound (b : Browser) (shell : Option Shell) (type : LogEventType)
    (isBlocked : Bool) (description : Str) : Browser :=
  match shell with
  | none => b
  | some shell => b.logEvent shell type isBlocked description

end Browser

namespace ShellContentBrowserClient

/-- `nativeCallback` is the address of the copy of the callback that `new` makes. -/
def allowCertificateError (b : Browser) (renderFrames : RenderFrames) (nativeCallback : Nat)
    (failure : CertificateFailure) : CertificateDecision :=
  if failure.resourceType ≠ .mainFrame then
    match b.forRenderProcessAndFrame renderFrames failure.renderProcessId
        failure.renderFrameId with
    -- s->LogEvent without a test of s
    | none => { result := some .deny, browser := b, fatal := some .nullShell }
    | some s =>
      { result := some .deny
        browser := b.logEvent s .subResourceSslError true failure.requestUrl.spec }
  else
    let ce : CertificateError :=
      { nativeCallback, renderProcessId := failure.renderProcessId
        renderFrameId := failure.renderFrameId, certError := failure.certError
        url := failure.requestUrl.spec }
    match failure.sslInfo.cert with
    | none => { message := some ce, browser := b }
    | some none => { browser := b, fatal := some .derEncoding }
    | some (some der) => { message := some { ce with derEncodedCert := der }, browser := b }

/-- The callback that is run, with its argument, and the heap after `delete cb`. -/
def allowCertificateErrorResponse (heap : HashMap Nat AceCb) (resp : CertificateErrorResponse) :
    Option ((AceCb × Bool) × HashMap Nat AceCb) :=
  (heap resp.nativeCallback).map fun cb => ((cb, resp.allow), heap.erase resp.nativeCallback)

/-- What `result_callback` is run with. -/
def requestGeolocationPermission (b : Browser) (webContents : Nat) (requestingFrame : Gurl) :
    Bool × Browser :=
  (false, b.logEventIfFound (b.forWebContents webContents) .location true requestingFrame.spec)

end ShellContentBrowserClient

/-- `policy_` is `net::StaticCookiePolicy`, here as what `CanSetCookie` answers for the
URL and its first party. -/
def CookieAccessPolicy.onCanSetCookie (policy : Gurl → Gurl → Bool) (p : Process)
    (request : URLRequest) : Bool × Process :=
  let allowed := policy request.url request.firstPartyForCookies
  let shell := p.forURLRequest request
  let browser := p.browser.logEventIfFound shell .cookie (!allowed) request.url.spec
  (allowed, { p with browser })

def ShellNetworkDelegate.onCanAccessFile (p : Process) (request : URLRequest) (path : Str) :
    Bool × Process :=
  (false, { p with browser := p.browser.logEventIfFound (p.forURLRequest request) .file true path })

theorem ShellNetworkDelegate.logRequest_eq (p : Process) (request : URLRequest) (ret : NetError) :
    logRequest p request ret = { p with
      browser := p.browser.logEventIfFound (p.forURLRequest request) .request (ret ≠ .ok)
        request.url.spec } := by
  unfold logRequest
  cases p.forURLRequest request <;> rfl

end Seaturtle
