import Seaturtle.Block.Soundness
import Seaturtle.Https.Rewriter
import Seaturtle.Shell.Registry

/-! The network delegate: what happens to a request before it goes out. -/
namespace Seaturtle
open SuffixWalk (Under)

/-- The singletons that the delegate reaches. `renderViews` is
`RenderViewHost::FromID` followed by `WebContents::FromRenderViewHost`. -/
structure Process where
  blocker : Blocker
  httpsRewriter : Https.HttpsRewriter
  browser : Browser
  renderViews : Int → Int → Option Nat

namespace Process

def forRenderProcessAndView (p : Process) (renderProcessId renderViewId : Int) : Option Shell :=
  (p.renderViews renderProcessId renderViewId).bind p.browser.forWebContents

def forURLRequest (p : Process) (request : URLRequest) : Option Shell :=
  request.resourceRequestInfo.bind fun (child, route) => p.forRenderProcessAndView child route

end Process

theorem Browser.forWebContents_mem {b : Browser} {wc : Nat} {shell : Shell}
    (found : b.forWebContents wc = some shell) : shell ∈ b.allShells :=
  List.mem_of_find?_eq_some found

theorem Process.forURLRequest_mem {p : Process} {request : URLRequest} {shell : Shell}
    (found : p.forURLRequest request = some shell) : shell ∈ p.browser.allShells := by
  obtain ⟨⟨child, route⟩, _, h⟩ := Option.bind_eq_some_iff.mp found
  obtain ⟨wc, _, h⟩ := Option.bind_eq_some_iff.mp h
  exact Browser.forWebContents_mem h

namespace ShellNetworkDelegate

/-- What a call that returns leaves behind; `newUrl` is none where `*new_url` was not set. -/
structure Outcome where
  code : NetError
  request : URLRequest
  newUrl : Option Gurl
  process : Process

def isBlocked (p : Process) (request : URLRequest) : Bool :=
  !p.blocker.isWhitelisted request.firstPartyForCookies &&
  !request.url.domainIs request.firstPartyForCookies.host &&
  p.blocker.shouldBlockThirdPartyRequest p.browser.settings request.url

def logRequest (p : Process) (request : URLRequest) (ret : NetError) : Process :=
  match p.forURLRequest request with
  | none => p
  | some shell =>
    { p with browser := p.browser.logEvent shell .request (ret ≠ .ok) request.url.spec }

def onBeforeURLRequest (env : Https.Externals) (p : Process) (request : URLRequest) :
    Except Https.Fatal Outcome :=
  if request.autocompleteRequest then .ok ⟨.ok, request, none, p⟩
  else
    let ret : NetError := if isBlocked p request then .errBlockedByClient else .ok
    let p := logRequest p request ret
    if ret = .ok then
      let request :=
        if Blocker.shouldClearReferrer p.browser.settings then { request with referrer := [] }
        else request
      (fun (code, request, newUrl) => ⟨code, request, newUrl, p⟩) <$>
        Https.maybeRewrite env p.httpsRewriter p.browser.settings.httpsRewrite request
    else .ok ⟨ret, request, none, p⟩

@[simp] theorem logRequest_settings (p : Process) (request : URLRequest) (ret : NetError) :
    (logRequest p request ret).browser.settings = p.browser.settings := by
  unfold logRequest
  split <;> rfl

@[simp] theorem logRequest_httpsRewriter (p : Process) (request : URLRequest) (ret : NetError) :
    (logRequest p request ret).httpsRewriter = p.httpsRewriter := by
  unfold logRequest
  split <;> rfl

/-- The request as the rewriter gets it. -/
def withoutReferrer (p : Process) (request : URLRequest) : URLRequest :=
  if Blocker.shouldClearReferrer p.browser.settings then { request with referrer := [] }
  else request

/-- Everything a call that returns can do: nothing for an autocomplete request, block,
or leave it to the rewriter. -/
theorem onBeforeURLRequest_cases {env : Https.Externals} {p : Process} {request : URLRequest}
    {out : Outcome} (done : onBeforeURLRequest env p request = .ok out) :
    (request.autocompleteRequest = true ∧ out = ⟨.ok, request, none, p⟩) ∨
    (request.autocompleteRequest = false ∧ isBlocked p request = true ∧
      out = ⟨.errBlockedByClient, request, none, logRequest p request .errBlockedByClient⟩) ∨
    (request.autocompleteRequest = false ∧ isBlocked p request = false ∧
      ∃ code rewritten newUrl, Https.maybeRewrite env p.httpsRewriter
          p.browser.settings.httpsRewrite (withoutReferrer p request) =
            .ok (code, rewritten, newUrl) ∧
        out = ⟨code, rewritten, newUrl, logRequest p request .ok⟩) := by
  unfold onBeforeURLRequest at done
  cases fetch : request.autocompleteRequest with
  | true =>
    rw [fetch, if_pos rfl] at done
    cases done
    exact .inl ⟨rfl, rfl⟩
  | false =>
    rw [if_neg (by rw [fetch]; exact Bool.false_ne_true)] at done
    cases blocked : isBlocked p request with
    | true =>
      rw [blocked] at done
      cases done
      exact .inr (.inl ⟨rfl, rfl, rfl⟩)
    | false =>
      simp only [blocked, Bool.false_eq_true, if_false, if_true, logRequest_settings,
        logRequest_httpsRewriter] at done
      obtain ⟨⟨code, rewritten, newUrl⟩, rewrites, rfl⟩ := Checked.map_eq_ok.mp done
      exact .inr (.inr ⟨rfl, rfl, code, rewritten, newUrl, rewrites, rfl⟩)

/-- Only the blocker blocks: the rewriter has an error code of its own. -/
theorem returns_blocked_iff (env : Https.Externals) (p : Process) (request : URLRequest) :
    (∃ out, onBeforeURLRequest env p request = .ok out ∧ out.code = .errBlockedByClient) ↔
      request.autocompleteRequest = false ∧ isBlocked p request = true := by
  constructor
  · rintro ⟨out, done, code⟩
    rcases onBeforeURLRequest_cases done with ⟨_, rfl⟩ | ⟨fetch, blocked, _⟩ |
      ⟨_, _, c, rewritten, newUrl, rewrites, rfl⟩
    · cases code
    · exact ⟨fetch, blocked⟩
    · cases code
      rcases Https.maybeRewrite_cases rewrites with h | h | h
      all_goals cases h.1
  · rintro ⟨fetch, blocked⟩
    refine ⟨⟨.errBlockedByClient, request, none, logRequest p request .errBlockedByClient⟩, ?_, rfl⟩
    simp [onBeforeURLRequest, fetch, blocked]

/-! Third-party blocking and the site notion of the cookie code. The registrable
domain of a host is a parameter. -/

/-- The request and its first party are of one site, as `GetSiteForURL` and the
third-party cookie policy understand it. -/
def SameSite (domainAndRegistry : Str → Str) (request : URLRequest) : Prop :=
  domainAndRegistry request.url.host ≠ [] ∧
    domainAndRegistry request.url.host = domainAndRegistry request.firstPartyForCookies.host

def load (p : Process) (rl : Blocking.RuleList) (ubw : UpdateBlockingWhitelist) : Process :=
  { p with blocker := (p.blocker.updateRulesForBrowserProcess rl).updateWhitelist ubw }

def Exempt (p : Process) (rl : Blocking.RuleList) (request : URLRequest) : Prop :=
  request.autocompleteRequest = true ∨
  p.blocker.isWhitelisted request.firstPartyForCookies = true ∨
  (request.firstPartyForCookies.host ≠ [] ∧
    Under '.' request.firstPartyForCookies.host request.url.host) ∨
  p.browser.settings.filters.blacklistThirdParties = false ∨
  ¬ Blocker.NamedByRule rl (lowerHost request.url)

theorem isBlocked_load (p : Process) (rl : Blocking.RuleList) (ubw : UpdateBlockingWhitelist)
    (request : URLRequest) :
    (request.autocompleteRequest = false ∧ isBlocked (load p rl ubw) request = true) ↔
      ¬ Exempt (load p rl ubw) rl request := by
  have scan := Blocker.blocking_is_naive_scan p.blocker rl p.browser.settings request.url
  have same : (load p rl ubw).blocker.shouldBlockThirdPartyRequest p.browser.settings request.url =
      (p.blocker.updateRulesForBrowserProcess rl).shouldBlockThirdPartyRequest p.browser.settings
        request.url := rfl
  have under := Gurl.domainIs_iff request.url request.firstPartyForCookies.host
  rw [← same] at scan
  simp only [isBlocked, Exempt, not_or, Bool.and_eq_true, Bool.not_eq_true', ← under, not_not,
    Bool.not_eq_true, Bool.not_eq_false, and_assoc]
  exact and_congr_right fun _ => and_congr_right fun _ => and_congr_right fun _ => scan

/-- A request of its first party's site gets through exactly when it is exempt:
sharing the registrable domain does not exempt it. -/
theorem same_site_passes_iff (env : Https.Externals) (p : Process) (rl : Blocking.RuleList)
    (ubw : UpdateBlockingWhitelist) (domainAndRegistry : Str → Str) (request : URLRequest) :
    (SameSite domainAndRegistry request → ∀ out,
        onBeforeURLRequest env (load p rl ubw) request = .ok out →
        out.code ≠ .errBlockedByClient) ↔
      (SameSite domainAndRegistry request → Exempt (load p rl ubw) rl request) := by
  apply forall_congr'
  intro _
  rw [← not_iff_not, ← isBlocked_load, ← returns_blocked_iff env]
  push Not
  rfl

/-- With a first party that is at its registrable domain itself, the notions agree. -/
theorem registrable_first_party_exempt {p : Process} {rl : Blocking.RuleList}
    {domainAndRegistry : Str → Str} {request : URLRequest}
    (suffix : ∀ host, domainAndRegistry host = [] ∨ Under '.' (domainAndRegistry host) host)
    (bare : domainAndRegistry request.firstPartyForCookies.host =
      request.firstPartyForCookies.host)
    (same : SameSite domainAndRegistry request) : Exempt p rl request := by
  obtain ⟨nonempty, shared⟩ := same
  rw [bare] at shared
  rw [shared] at nonempty
  have under : Under '.' request.firstPartyForCookies.host request.url.host :=
    shared ▸ (suffix request.url.host).resolve_left (shared ▸ nonempty)
  exact .inr (.inr (.inl ⟨nonempty, under⟩))

def exampleDomain (host : Str) : Str :=
  if Under '.' "example.com".toList host then "example.com".toList else []

/-- A request of the tab at view 2 of process 1. -/
def tabRequest : URLRequest := { homePage with resourceRequestInfo := some (1, 2) }

/-- `www.example.com` loads from `cdn.example.com`. -/
def siblingRequest : URLRequest where
  url := ⟨"http://cdn.example.com/a".toList, true, kHttp, "cdn.example.com".toList, "/a".toList⟩
  firstPartyForCookies :=
    ⟨"http://www.example.com/".toList, true, kHttp, "www.example.com".toList, "/".toList⟩

theorem sibling_host_blocked :
    ¬ ∀ (domainAndRegistry : Str → Str),
      (∀ host, domainAndRegistry host = [] ∨ Under '.' (domainAndRegistry host) host) →
      ∀ (rl : Blocking.RuleList) (request : URLRequest), SameSite domainAndRegistry request →
        ∀ out, onBeforeURLRequest Https.literal
            (load ⟨{}, {}, { settings := {} }, fun _ _ => none⟩ rl {}) request = .ok out →
          out.code ≠ .errBlockedByClient := by
  intro never
  have suffix : ∀ host, exampleDomain host = [] ∨ Under '.' (exampleDomain host) host := by
    intro host
    unfold exampleDomain
    split
    · next under => exact .inr under
    · exact .inl rfl
  have same : SameSite exampleDomain siblingRequest := by
    unfold SameSite
    decide +kernel
  refine never exampleDomain suffix ⟨[⟨"example.com".toList, true, []⟩]⟩ siblingRequest same
    ⟨.errBlockedByClient, siblingRequest, none, ?_⟩ ?_ rfl
  · exact load ⟨{}, {}, { settings := {} }, fun _ _ => none⟩
      ⟨[⟨"example.com".toList, true, []⟩]⟩ {}
  · have blocked : isBlocked (load ⟨{}, {}, { settings := {} }, fun _ _ => none⟩
        ⟨[⟨"example.com".toList, true, []⟩]⟩ {}) siblingRequest = true := by decide +kernel
    unfold onBeforeURLRequest
    rw [blocked]
    rfl

end ShellNetworkDelegate

end Seaturtle
