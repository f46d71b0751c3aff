import Seaturtle.Shell.Attribution
import Seaturtle.Shell.Favicon

/-! The commands that Java gives to a shell, and what a shell tells Java of its page. -/
namespace Seaturtle

/-- What the code reads of a `content::SSLStatus`, with the cipher suite and the version that
its connection status encodes. -/
structure SslStatus where
  authenticated : Bool
  securityBits : Int
  cipherSuite : Nat
  version : Nat
  deriving DecidableEq

/-- `net::SSL_CONNECTION_VERSION_TLS1`. -/
def sslConnectionVersionTls1 : Nat := 3

/-- Entries are compared by their addresses. -/
structure NavigationEntry where
  address : Nat
  url : Gurl
  ssl : SslStatus
  deriving DecidableEq

structure FindInPage where
  id : Int
  stop : Bool
  query : Str
  forward : Bool
  findNext : Bool
  deriving DecidableEq

/-- What a shell asks of its `WebContents`. -/
inductive PageRequest where
  | loadUrl (url : Gurl) (overrideUserAgent : Bool)
  | reload (checkForRepost : Bool)
  | downloadImage (download : Favicon.ImageDownload)
  | stopFinding
  | find (id : Int) (query : Str) (forward findNext : Bool)
  deriving DecidableEq

/-- The `WebContents` of a shell with its navigation controller, and the members of the shell
that are about its page. -/
structure Page where
  lastCommittedEntry : Option NavigationEntry := none
  visibleEntry : Option NavigationEntry := none
  activeEntry : Option NavigationEntry := none
  url : Gurl := ⟨[], false, [], [], []⟩
  title : Str := []
  userAgentOverride : Str := []
  requests : List PageRequest := []
  faviconCandidate : Option Gurl := none
  isFullscreen : Bool := false
  deriving DecidableEq

structure SslDetails where
  bits : Option Int := none
  sslVersion : Option Str := none
  keyExchange : Option Str := none
  cipher : Option Str := none
  mac : Option Str := none
  isAead : Option Bool := none
  deriving DecidableEq

structure ShellCommandResponse where
  parentShell : Option Nat := none
  /-- `is_insecure`. -/
  sslStatus : Option Bool := none
  sslDetails : Option SslDetails := none
  log : Option (List LogEvent) := none
  url : Option Str := none
  deriving DecidableEq

/-- `net::SSLCipherSuiteToStrings`. -/
structure CipherSuiteStrings where
  keyExchange : Option Str
  cipher : Option Str
  mac : Option Str
  isAead : Bool

structure PageExternals where
  parse : Str → Gurl
  appendQueryParameter : Gurl → Str → Str → Gurl
  sslVersionToString : Nat → Option Str
  sslCipherSuiteToStrings : Nat → CipherSuiteStrings

def kBadUrlUrl : Str := "krypton://bad-url".toList
def kBadUrlParam : Str := "url".toList
def kUserAgentDesktop : Str :=
  ("Mozilla/5.0 (X11; Linux x86_64) " ++ "AppleWebKit/537.36 (KHTML, like Gecko) " ++
    "Chrome/38.0.2125.102 Safari/537.36").toList

namespace Page

def getSslStatus (p : Page) : ShellCommandResponse :=
  let isInsecure :=
    match p.lastCommittedEntry with
    | none => false
    | some ne =>
      if ne.url.scheme == kKryptonScheme then false
      else if !ne.ssl.authenticated then true
      else if ne.ssl.securityBits < 128 then true
      else if ne.ssl.cipherSuite = 0 then true
      else !decide (sslConnectionVersionTls1 ≤ ne.ssl.version)
  { sslStatus := some isInsecure }

def getVisibleUrl (p : Page) : ShellCommandResponse :=
  match p.visibleEntry with
  | none => {}
  | some visible =>
    if p.lastCommittedEntry.map (·.address) = some visible.address then {}
    else { url := some visible.url.spec }

def getSslDetails (env : PageExternals) (p : Page) : ShellCommandResponse :=
  let sd : SslDetails :=
    match p.lastCommittedEntry with
    | none => {}
    | some ne =>
      if 0 < ne.ssl.securityBits ∧ ne.ssl.cipherSuite ≠ 0 then
        let strings := env.sslCipherSuiteToStrings ne.ssl.cipherSuite
        { bits := some ne.ssl.securityBits
          sslVersion := env.sslVersionToString ne.ssl.version
          keyExchange := strings.keyExchange
          cipher := strings.cipher
          mac := strings.mac
          isAead := some strings.isAead }
      else { bits := some ne.ssl.securityBits }
  { sslDetails := some sd }

def ask (p : Page) (request : PageRequest) : Page := { p with requests := p.requests ++ [request] }

def load (env : PageExternals) (p : Page) (surl : Str) (asDesktop : Bool) : Page :=
  let url := env.parse surl
  let url :=
    if url.isValid then url
    else env.appendQueryParameter (env.parse kBadUrlUrl) kBadUrlParam surl
  let userAgentOverride := if asDesktop then kUserAgentDesktop else []
  { p with userAgentOverride }.ask (.loadUrl url asDesktop)

def reload (env : PageExternals) (p : Page) (asDesktop : Bool) : Page :=
  match p.activeEntry with
  | some active => if asDesktop then p.load env active.url.spec true else p.ask (.reload true)
  | none => p.ask (.reload true)

def downloadFavicon (p : Page) : Page :=
  match Favicon.downloadFavicon p.url p.faviconCandidate with
  | none => p
  | some download => p.ask (.downloadImage download)

def findInPage (p : Page) (fip : FindInPage) : Page :=
  let p := if fip.stop then p.ask .stopFinding else p
  if fip.query.isEmpty then p
  else p.ask (.find fip.id fip.query fip.forward fip.findNext)

end Page

/-- The `ShellCommand` messages of Java. -/
inductive JavaCommand where
  | close
  | getParent
  | loadUrl (url : Str) (overrideUserAgent : Bool)
  | reload (overrideUserAgent : Bool)
  | getSslStatus
  | getSslDetails
  | getLog
  | getVisibleUrl
  | downloadFavicon
  | findInPage (fip : FindInPage)
  /-- Any other value of the enumeration. -/
  | unknown (command : Int)
  deriving DecidableEq

/-- What a command leaves of the page, what it answers, and whether the shell is closed. -/
structure CommandResult where
  page : Page
  response : Option ShellCommandResponse := none
  closes : Bool := false

/-- `none` is the `STNOTREACHED`. -/
def Shell.handleShellCommand (env : PageExternals) (shell : Shell) (page : Page) :
    JavaCommand → Option CommandResult
  | .close => some { page, closes := true }
  | .getParent => some { page, response := some { parentShell := some shell.parentShell } }
  | .loadUrl url overrideUserAgent => some { page := page.load env url overrideUserAgent }
  | .reload overrideUserAgent => some { page := page.reload env overrideUserAgent }
  | .getSslStatus => some { page, response := some page.getSslStatus }
  | .getSslDetails => some { page, response := some (page.getSslDetails env) }
  | .getLog => some { page, response := some { log := some shell.log } }
  | .getVisibleUrl => some { page, response := some page.getVisibleUrl }
  | .downloadFavicon => some { page := page.downloadFavicon }
  | .findInPage fip => some { page := page.findInPage fip }
  | .unknown _ => none

/-- The commands that a shell sends about its page. -/
inductive PageUpdate where
  | isLoading (isLoading : Bool)
  /-- The `double`, by its bits. -/
  | progress (bits : UInt64)
  | updateVisibleUrl (url : Str)
  | didFinishLoad (url title : Str)
  deriving DecidableEq

/-- The messages to Java, answers included. -/
inductive Message where
  | registry (m : ToJava)
  | pageUpdate (nativeShell : Nat) (update : PageUpdate)
  | shellCommandResponse (response : ShellCommandResponse)
  | exitFullscreenMode
  deriving DecidableEq

inductive CommandFatal where
  | noShell
  | unknownCommand
  deriving DecidableEq

/-- `log_.Clear()`. -/
def Browser.clearLog (b : Browser) (shell : Shell) : Browser :=
  let cleared (s : Shell) : Shell := if s.ptr = shell.ptr then { s with log := [] } else s
  { b with allShells := b.allShells.map cleared }

theorem clearLog_ptrs (b : Browser) (sh : Shell) :
    (b.clearLog sh).allShells.map (·.ptr) = b.allShells.map (·.ptr) := by
  simp only [Browser.clearLog, List.map_map]
  apply List.map_congr_left
  intro s _
  simp only [Function.comp_apply]
  split <;> rfl

namespace BridgeRuns

structure State where
  attribution : AttributionRuns.State
  /-- By the addresses of the shells. -/
  pages : Nat → Page := fun _ => {}
  toJava : List Message := []
  fatal : Option CommandFatal := none

namespace State

def browser (s : State) : Browser := s.attribution.browser

/-- The process goes on to `attribution`, and Java gets what it has sent on the way. -/
def follow (s : State) (attribution : AttributionRuns.State) : State :=
  { s with
    attribution
    toJava := s.toJava ++
      (attribution.browser.toJava.drop s.browser.toJava.length).map .registry }

def send (s : State) (m : Message) : State := { s with toJava := s.toJava ++ [m] }

def setPage (s : State) (shell : Nat) (page : Page) : State :=
  { s with pages := fun ptr => if ptr = shell then page else s.pages ptr }

def respond (s : State) : Option ShellCommandResponse → State
  | none => s
  | some response => s.send (.shellCommandResponse response)

def dispatchShellCommand (env : PageExternals) (s : State) (nativeShell : Nat)
    (command : JavaCommand) : State :=
  match s.browser.forPtr nativeShell with
  | none => { s with fatal := some .noShell }
  | some shell =>
    match shell.handleShellCommand env (s.pages shell.ptr) command with
    | none => { s with fatal := some .unknownCommand }
    | some result =>
      let s := (s.setPage shell.ptr result.page).respond result.response
      if result.closes then s.follow (s.attribution.withBrowser (s.browser.close shell)) else s

/-- `DidNavigateMainFrame` up to the call of Java. -/
def updateVisibleUrl (s : State) (shell : Shell) (isNavigationToDifferentPage : Bool)
    (url : Gurl) : State :=
  let s :=
    if isNavigationToDifferentPage then
      { s with attribution := s.attribution.withBrowser (s.browser.clearLog shell) }
    else s
  s.send (.pageUpdate shell.ptr (.updateVisibleUrl url.spec))

def resetFaviconCandidate (s : State) (shell : Shell) : State :=
  let page := s.pages shell.ptr
  s.setPage shell.ptr
    { page with faviconCandidate := Favicon.didNavigateMainFrame page.faviconCandidate }

def didNavigateMainFrame (s : State) (shell : Shell) (isNavigationToDifferentPage : Bool)
    (url : Gurl) : State :=
  (s.updateVisibleUrl shell isNavigationToDifferentPage url).resetFaviconCandidate shell

def didFinishLoad (s : State) (shell : Shell) (isMainFrame : Bool) (validatedUrl : Gurl) : State :=
  if !isMainFrame then s
  else s.send (.pageUpdate shell.ptr (.didFinishLoad validatedUrl.spec (s.pages shell.ptr).title))

def toggleFullscreenModeForTab (s : State) (shell : Shell) (enterFullscreen : Bool) : State :=
  let s := s.setPage shell.ptr { s.pages shell.ptr with isFullscreen := enterFullscreen }
  if !enterFullscreen then s.send .exitFullscreenMode else s

def didUpdateFaviconUrl (s : State) (shell : Shell) (candidates : List Favicon.FaviconURL) :
    State :=
  let page := s.pages shell.ptr
  s.setPage shell.ptr
    { page with faviconCandidate := Favicon.didUpdateFaviconURL candidates page.faviconCandidate }

end State

/-- What content tells an open shell. -/
inductive PageEvent where
  | loadingStateChanged (isLoading : Bool)
  | loadProgressChanged (progress : UInt64)
  | didNavigateMainFrame (isNavigationToDifferentPage : Bool) (url : Gurl)
  | didFinishLoad (isMainFrame : Bool) (validatedUrl : Gurl)
  | didUpdateFaviconUrl (candidates : List Favicon.FaviconURL)
  | toggleFullscreenModeForTab (enterFullscreen : Bool)
  /-- content's own entries, URL and title. -/
  | changed (lastCommittedEntry visibleEntry activeEntry : Option NavigationEntry) (url : Gurl)
    (title : Str)

def State.pageEvent (s : State) (shell : Shell) : PageEvent → State
  | .loadingStateChanged isLoading => s.send (.pageUpdate shell.ptr (.isLoading isLoading))
  | .loadProgressChanged progress => s.send (.pageUpdate shell.ptr (.progress progress))
  | .didNavigateMainFrame different url => s.didNavigateMainFrame shell different url
  | .didFinishLoad isMainFrame validatedUrl => s.didFinishLoad shell isMainFrame validatedUrl
  | .didUpdateFaviconUrl candidates => s.didUpdateFaviconUrl shell candidates
  | .toggleFullscreenModeForTab enterFullscreen =>
    s.toggleFullscreenModeForTab shell enterFullscreen
  | .changed lastCommittedEntry visibleEntry activeEntry url title =>
    let page := s.pages shell.ptr
    s.setPage shell.ptr { page with lastCommittedEntry, visibleEntry, activeEntry, url, title }

inductive Event where
  | attribution (e : AttributionRuns.Event)
  | shellCommand (nativeShell : Nat) (command : JavaCommand)
  | page (shell : Nat) (e : PageEvent)

def step (env : Https.Externals) (policy : Gurl → Gurl → Bool) (pageEnv : PageExternals)
    (s : State) (e : Event) : Option State :=
  if s.fatal.isSome then none
  else match e with
    | .attribution e => (AttributionRuns.step env policy s.attribution e).map s.follow
    | .shellCommand nativeShell command =>
      if s.attribution.fatal.isSome then none
      else some (s.dispatchShellCommand pageEnv nativeShell command)
    | .page shell e =>
      if s.attribution.fatal.isSome then none
      else (s.browser.forPtr shell).map fun shell => s.pageEvent shell e

def initial (blocker : Blocker) (httpsRewriter : Https.HttpsRewriter) (settings : AllSettings) :
    State :=
  { attribution := AttributionRuns.initial blocker httpsRewriter settings }

def canonicalPages : PageExternals where
  parse := Gurl.parseCanonical
  appendQueryParameter url name value :=
    Gurl.parseCanonical (url.spec ++ "?".toList ++ name ++ "=".toList ++ value)
  sslVersionToString _ := none
  sslCipherSuiteToStrings _ := ⟨none, none, none, false⟩

end BridgeRuns

end Seaturtle
