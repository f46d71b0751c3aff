import Seaturtle.Https.Completeness
import Seaturtle.Net.Delegate
import Seaturtle.Shell.Ownership
import Seaturtle.Lib.Runs

/-! What the network delegate is for. A policy keeps the messages that Java has sent last and
reads them through for each request; the delegate, with its maps and its walks over suffixes,
answers as the policy does. -/
namespace Seaturtle
open SuffixWalk (Under)

/-- What becomes of a request: the error code, the request and `new_url`, or the end of the
process. -/
abbrev Verdict := Except Https.Fatal (NetError × URLRequest × Option Gurl)

/-! The policy. -/

structure Policy where
  settings : AllSettings
  blocking : Blocking.RuleList := {}
  whitelist : UpdateBlockingWhitelist := {}
  https : Https.RuleList := {}
  /-- A message or a request has ended the process. -/
  ended : Bool := false

namespace Policy

/-- The entries of a host are one: they are for the whole host if none of them has a path. -/
def exempts (p : Policy) (url : Gurl) : Bool :=
  let entries := p.whitelist.whitelistedHost.filter fun wh =>
    stringToLowerASCII wh.host = lowerHost url
  let paths := (entries.flatMap (·.path)).map stringToLowerASCII
  url.schemeIs kKryptonScheme ||
    !entries.isEmpty && (paths.isEmpty || paths.contains (stringToLowerASCII url.path))

def names (p : Policy) (host : Str) : Bool :=
  p.blocking.rule.any fun rule =>
    rule.blockThirdParty && decide ('.' ∈ rule.domain) && decide (Under '.' rule.domain host)

def ownParty (request : URLRequest) : Bool :=
  !request.firstPartyForCookies.host.isEmpty &&
    decide (Under '.' request.firstPartyForCookies.host request.url.host)

def blocks (p : Policy) (request : URLRequest) : Bool :=
  p.settings.filters.blacklistThirdParties && p.names (lowerHost request.url) &&
    !p.exempts request.firstPartyForCookies && !ownParty request

variable (env : Https.Externals)

/-- The request goes on under the text, which has to be a valid URL. -/
def goTo (request : URLRequest) (text : Str) : Verdict :=
  if (env.parse text).isValid then .ok (.ok, request.recordRewrite, some (env.parse text))
  else .error .newUrlInvalid

def upgrade (p : Policy) (request : URLRequest) : Verdict :=
  let only := p.settings.httpsRewrite.httpsOnly
  if p.settings.httpsRewrite.enabled = true ∧ request.url.scheme = kHttp then
    if request.url.spec ∈ request.prevRewrites then
      .ok (if only then .errUnsafeRedirect else .ok, request, none)
    else match Https.keptMatch env p.https request.url with
      | some rule => goTo env request (Https.replaced env request.url.spec rule.pair)
      | none =>
        if !only then .ok (.ok, request, none)
        else if request.url.spec.length < 4 then .error .outOfRange
        else goTo env request (kHttps ++ request.url.spec.drop 4)
  else .ok (.ok, request, none)

def verdict (p : Policy) (request : URLRequest) : Verdict :=
  if request.autocompleteRequest then .ok (.ok, request, none)
  else if p.blocks request then .ok (.errBlockedByClient, request, none)
  else p.upgrade env
    (if p.settings.filters.clearReferrer then { request with referrer := [] } else request)

/-- Rules that can be loaded. -/
def loads (rl : Https.RuleList) : Bool :=
  rl.ruleSet.all fun rs =>
    !rs.rule.isEmpty && rs.rule.all (env.re2Ok ·.«from») &&
      rs.host.all fun entry => !entry.contains '*' || entry.head? = some '*' && 2 ≤ entry.length

inductive Event where
  | updateSettings (settings : AllSettings)
  | updateBlockingRules (rl : Blocking.RuleList)
  | updateBlockingWhitelist (ubw : UpdateBlockingWhitelist)
  | updateHttpsRules (rl : Https.RuleList)
  | request (request : URLRequest)

def step (p : Policy) (e : Event) : Option (List Verdict × Policy) :=
  if p.ended then none
  else match e with
    | .updateSettings settings => some ([], { p with settings })
    | .updateBlockingRules rl => some ([], { p with blocking := rl })
    | .updateBlockingWhitelist ubw => some ([], { p with whitelist := ubw })
    | .updateHttpsRules rl =>
      some ([], if loads env rl then { p with https := rl } else { p with ended := true })
    | .request request =>
      some ([p.verdict env request], { p with ended := (p.verdict env request).toOption.isNone })

end Policy

/-! The delegate among the messages. -/

namespace DelegateRuns

structure State where
  process : Process
  ended : Bool := false

inductive Event where
  | shells (e : ShellRuns.Event)
  /-- A render view host appears, with its contents, or disappears. -/
  | renderViewHost (processId viewId : Int) (webContents : Option Nat)
  | updateBlockingRules (rl : Blocking.RuleList)
  | updateBlockingWhitelist (ubw : UpdateBlockingWhitelist)
  | updateHttpsRules (rl : Https.RuleList)
  | onBeforeURLRequest (request : URLRequest)

def State.updateHttpsRules (env : Https.Externals) (s : State) (rl : Https.RuleList) : State :=
  match Https.updateRules env rl with
  | .ok httpsRewriter => { s with process := { s.process with httpsRewriter } }
  | .error _ => { s with ended := true }

def State.onBeforeURLRequest (env : Https.Externals) (s : State) (request : URLRequest) :
    Verdict × State :=
  match ShellNetworkDelegate.onBeforeURLRequest env s.process request with
  | .ok out => (.ok (out.code, out.request, out.newUrl), { s with process := out.process })
  | .error e => (.error e, { s with ended := true })

def step (env : Https.Externals) (s : State) (e : Event) : Option (List Verdict × State) :=
  let p := s.process
  if s.ended then none
  else match e with
    | .shells e =>
      (ShellRuns.step p.browser e).map fun browser => ([], { s with process := { p with browser } })
    | .renderViewHost processId viewId webContents =>
      let renderViews (p' i : Int) :=
        if p' = processId ∧ i = viewId then webContents else p.renderViews p' i
      some ([], { s with process := { p with renderViews } })
    | .updateBlockingRules rl =>
      some ([], { s with
        process := { p with blocker := p.blocker.updateRulesForBrowserProcess rl } })
    | .updateBlockingWhitelist ubw =>
      some ([], { s with process := { p with blocker := p.blocker.updateWhitelist ubw } })
    | .updateHttpsRules rl => some ([], s.updateHttpsRules env rl)
    | .onBeforeURLRequest request =>
      some ([(s.onBeforeURLRequest env request).1], (s.onBeforeURLRequest env request).2)

def initial (settings : AllSettings) : State where
  process := ⟨{}, {}, ShellRuns.initial settings, fun _ _ => none⟩

/-- The message or the request, as the policy gets it. -/
def Event.policy? : Event → Option Policy.Event
  | .shells (.updateGlobalSettings settings) => some (.updateSettings settings)
  | .shells _ => none
  | .renderViewHost _ _ _ => none
  | .updateBlockingRules rl => some (.updateBlockingRules rl)
  | .updateBlockingWhitelist ubw => some (.updateBlockingWhitelist ubw)
  | .updateHttpsRules rl => some (.updateHttpsRules rl)
  | .onBeforeURLRequest request => some (.request request)

/-- The policy that the maps and the index have been built from. -/
structure Carries (env : Https.Externals) (s : State) (p : Policy) : Prop where
  settings : s.process.browser.settings = p.settings
  blocker : s.process.blocker =
    (s.process.blocker.updateRulesForBrowserProcess p.blocking).updateWhitelist p.whitelist
  https : Https.updateRules env p.https = .ok s.process.httpsRewriter
  ended : s.ended = p.ended

end DelegateRuns

/-! Loading the rules of the rewriter. -/

section
open Https
variable {env : Externals}

theorem addHost_entry {crs : CompiledRuleSet} {hr hr' : HttpsRewriter} {entry : Str}
    (h : addHost crs hr entry = .ok hr') :
    (!entry.contains '*' || decide (entry.head? = some '*') && decide (2 ≤ entry.length)) =
      true := by
  unfold addHost at h
  split at h
  · next star =>
    split at h
    · cases h
    · next long =>
      have first := (idxOf?_star entry).mp star
      simp only [first, decide_true, Bool.true_and, Bool.or_eq_true, decide_eq_true_eq]
      right
      omega
  · cases h
  · next plain =>
    rw [List.idxOf?_eq_none_iff] at plain
    simp [plain]

theorem addRuleSet_loads {rs : RuleSet} {hr hr' : HttpsRewriter}
    (h : addRuleSet env hr rs = .ok hr') :
    rs.rule ≠ [] ∧ (∀ r ∈ rs.rule, env.re2Ok r.«from» = true) ∧
      ∀ entry ∈ rs.host,
        (!entry.contains '*' || decide (entry.head? = some '*') && decide (2 ≤ entry.length)) =
      true := by
  obtain ⟨crs, compiles, rest⟩ := Checked.bind_eq_ok.mp h
  obtain ⟨rules, each, _⟩ := Checked.bind_eq_ok.mp compiles
  cases compile_ok compiles
  split at rest
  · cases rest
  · next some =>
    refine ⟨?_, Checked.mapM_each each, ?_⟩
    · rintro none
      apply some
      rw [CompiledRuleSet.empty, compiled, none]
      rfl
    · intro entry named
      obtain ⟨s, s', added⟩ := Checked.foldlM_each rest entry named
      exact addHost_entry added

/-- The list is one that `UpdateRules` comes back from. -/
theorem loads_iff (rl : RuleList) :
    Policy.loads env rl = true ↔ ∃ hr, updateRules env rl = .ok hr := by
  unfold Policy.loads
  simp only [List.all_eq_true, Bool.and_eq_true, Bool.not_eq_true', List.isEmpty_eq_false_iff]
  constructor
  · intro all
    refine updateRules_total (fun rs member => (all rs member).1.2)
      (fun rs member => (all rs member).1.1) fun rs member entry named => ?_
    have shape := (all rs member).2 entry named
    simpa using shape
  · rintro ⟨hr, built⟩ rs member
    obtain ⟨s, s', added⟩ := Checked.foldlM_each built rs member
    obtain ⟨some, patterns, hosts⟩ := addRuleSet_loads added
    exact ⟨⟨some, patterns⟩, hosts⟩

end

/-! One request. -/

namespace DelegateRuns

variable {env : Https.Externals} {s : State} {p : Policy}

theorem Carries.exempts (carries : Carries env s p) (url : Gurl) :
    s.process.blocker.isWhitelisted url = p.exempts url := by
  have lookup := Blocker.whitelist_lookup p.whitelist.whitelistedHost .empty (lowerHost url)
  have entries : (p.whitelist.whitelistedHost.filter fun wh =>
      stringToLowerASCII wh.host = lowerHost url) =
      Blocker.entriesFor p.whitelist.whitelistedHost (lowerHost url) := rfl
  rw [carries.blocker, Policy.exempts, entries, List.map_flatMap, Blocker.isWhitelisted,
    Blocker.updateWhitelist]
  simp only [lookup]
  cases url.schemeIs kKryptonScheme with
  | true => rfl
  | false =>
    by_cases none : Blocker.entriesFor p.whitelist.whitelistedHost (lowerHost url) = []
    · simp [none]
    · simp [none, Blocker.listedPaths]

theorem Carries.names (carries : Carries env s p) (request : URLRequest) :
    s.process.blocker.shouldBlockThirdPartyRequest p.settings request.url =
      (p.settings.filters.blacklistThirdParties && p.names (lowerHost request.url)) := by
  rw [carries.blocker, Bool.eq_iff_iff, Blocker.should_block_iff, Bool.and_eq_true]
  apply and_congr_right
  intro _
  have evil : ∀ d, ((s.process.blocker.updateRulesForBrowserProcess p.blocking).updateWhitelist
      p.whitelist).isHostEvilThirdParty d = true ↔
        ∃ rule ∈ p.blocking.rule, rule.blockThirdParty = true ∧ rule.domain = d :=
    Blocker.evil_iff s.process.blocker p.blocking
  simp only [Policy.names, List.any_eq_true, Bool.and_eq_true, decide_eq_true_eq, evil]
  constructor
  · rintro ⟨d, dot, under, rule, member, third, rfl⟩
    exact ⟨rule, member, ⟨third, dot⟩, under⟩
  · rintro ⟨rule, member, ⟨third, dot⟩, under⟩
    exact ⟨rule.domain, dot, under, rule, member, third, rfl⟩

theorem Carries.blocks (carries : Carries env s p) (request : URLRequest) :
    ShellNetworkDelegate.isBlocked s.process request = p.blocks request := by
  have own : request.url.domainIs request.firstPartyForCookies.host = Policy.ownParty request := rfl
  rw [ShellNetworkDelegate.isBlocked, carries.settings, carries.names, carries.exempts, own,
    Policy.blocks]
  cases p.exempts request.firstPartyForCookies
  · cases Policy.ownParty request <;> simp
  · simp

theorem goTo_doRewrite (request : URLRequest) (text : Str) :
    (fun r : URLRequest × Gurl => (NetError.ok, r.1, some r.2)) <$>
        Https.doRewrite env text request = Policy.goTo env request text := by
  rw [Https.doRewrite, Policy.goTo]
  split <;> rfl

theorem Carries.upgrade (carries : Carries env s p) (keeps : Https.KeepsUnmatched env)
    (request : URLRequest) :
    Https.maybeRewrite env s.process.httpsRewriter p.settings.httpsRewrite request =
      p.upgrade env request := by
  unfold Policy.upgrade
  by_cases on : p.settings.httpsRewrite.enabled = true ∧ request.url.scheme = kHttp
  · obtain ⟨enabled, http⟩ := on
    rw [if_pos ⟨enabled, http⟩]
    by_cases again : request.url.spec ∈ request.prevRewrites
    · have scheme : request.url.schemeIs kHttp = true := by rw [Gurl.schemeIs, http]; decide
      rw [if_pos again, Https.maybeRewrite]
      simp only [enabled, scheme, again, Bool.not_true, Bool.false_eq_true, if_false, if_true]
      cases p.settings.httpsRewrite.httpsOnly <;> rfl
    · rw [if_neg again, Https.maybeRewrite_kept keeps carries.https enabled http again]
      cases Https.keptMatch env p.https request.url with
      | some rule => exact goTo_doRewrite request _
      | none =>
        cases p.settings.httpsRewrite.httpsOnly with
        | false => rfl
        | true =>
          simp only [if_true, Bool.not_true, Bool.false_eq_true, if_false]
          by_cases short : request.url.spec.length < 4
          · rw [Https.forcedRewrite, if_pos short, if_pos short]
            rfl
          · rw [Https.forcedRewrite, if_neg short, if_neg short]
            exact goTo_doRewrite request _
  · rw [if_neg on, Https.maybeRewrite]
    by_cases enabled : p.settings.httpsRewrite.enabled = true
    · have other : request.url.scheme ≠ kHttp := fun http => on ⟨enabled, http⟩
      simp [enabled, Gurl.schemeIs, other]
    · simp [enabled]

theorem Carries.verdict (carries : Carries env s p) (keeps : Https.KeepsUnmatched env)
    (request : URLRequest) :
    (fun out => (out.code, out.request, out.newUrl)) <$>
        ShellNetworkDelegate.onBeforeURLRequest env s.process request = p.verdict env request := by
  unfold ShellNetworkDelegate.onBeforeURLRequest Policy.verdict
  cases request.autocompleteRequest with
  | true => rfl
  | false =>
    rw [carries.blocks]
    cases blocked : p.blocks request with
    | true => rfl
    | false =>
      simp only [Bool.false_eq_true, if_false, if_true,
        ShellNetworkDelegate.logRequest_settings, ShellNetworkDelegate.logRequest_httpsRewriter,
        carries.settings, Blocker.shouldClearReferrer, carries.upgrade keeps]
      cases Policy.upgrade env p _ <;> rfl

theorem request_keeps {process : Process} {request : URLRequest}
    {out : ShellNetworkDelegate.Outcome}
    (done : ShellNetworkDelegate.onBeforeURLRequest env process request = .ok out) :
    out.process.blocker = process.blocker ∧ out.process.httpsRewriter = process.httpsRewriter ∧
      out.process.browser.settings = process.browser.settings := by
  have logged : ∀ ret, (ShellNetworkDelegate.logRequest process request ret).blocker =
      process.blocker := by
    intro ret
    unfold ShellNetworkDelegate.logRequest
    split <;> rfl
  rcases ShellNetworkDelegate.onBeforeURLRequest_cases done with ⟨_, rfl⟩ | ⟨_, _, rfl⟩ |
    ⟨_, _, code, rewritten, newUrl, _, rfl⟩
  · exact ⟨rfl, rfl, rfl⟩
  · exact ⟨logged _, ShellNetworkDelegate.logRequest_httpsRewriter _ _ _,
      ShellNetworkDelegate.logRequest_settings _ _ _⟩
  · exact ⟨logged _, ShellNetworkDelegate.logRequest_httpsRewriter _ _ _,
      ShellNetworkDelegate.logRequest_settings _ _ _⟩

theorem Carries.of_process (carries : Carries env s p) {s' : State}
    (blocker : s'.process.blocker = s.process.blocker)
    (httpsRewriter : s'.process.httpsRewriter = s.process.httpsRewriter)
    (settings : s'.process.browser.settings = s.process.browser.settings)
    (ended : s'.ended = s.ended) : Carries env s' p where
  settings := settings.trans carries.settings
  blocker := by rw [blocker]; exact carries.blocker
  https := by rw [httpsRewriter]; exact carries.https
  ended := ended.trans carries.ended

/-- A request meets its verdict, and the process goes on as the policy has it. -/
theorem Carries.request (carries : Carries env s p) (keeps : Https.KeepsUnmatched env)
    (goes : p.ended = false) (request : URLRequest) :
    (s.onBeforeURLRequest env request).1 = p.verdict env request ∧
      Carries env (s.onBeforeURLRequest env request).2
        { p with ended := (p.verdict env request).toOption.isNone } := by
  rw [← carries.verdict keeps]
  unfold State.onBeforeURLRequest
  cases done : ShellNetworkDelegate.onBeforeURLRequest env s.process request with
  | ok out =>
    obtain ⟨blocker, httpsRewriter, settings⟩ := request_keeps done
    have same : { p with ended := false } = p := by rw [← goes]
    refine ⟨rfl, ?_⟩
    change Carries env _ { p with ended := false }
    rw [same]
    exact carries.of_process blocker httpsRewriter settings rfl
  | error e => exact ⟨rfl, carries.settings, carries.blocker, carries.https, rfl⟩

theorem Carries.updateHttpsRules (carries : Carries env s p) (rl : Https.RuleList) :
    Carries env (s.updateHttpsRules env rl)
      (if Policy.loads env rl then { p with https := rl } else { p with ended := true }) := by
  unfold State.updateHttpsRules
  cases built : Https.updateRules env rl with
  | ok httpsRewriter =>
    rw [if_pos ((loads_iff rl).mpr ⟨httpsRewriter, built⟩)]
    exact ⟨carries.settings, carries.blocker, built, carries.ended⟩
  | error e =>
    have fails : ¬ Policy.loads env rl = true := by
      rw [loads_iff, built]
      rintro ⟨hr, impossible⟩
      cases impossible
    rw [if_neg fails]
    exact ⟨carries.settings, carries.blocker, carries.https, rfl⟩

theorem Carries.updateBlockingRules (carries : Carries env s p) (rl : Blocking.RuleList) :
    Carries env { s with process := { s.process with
        blocker := s.process.blocker.updateRulesForBrowserProcess rl } }
      { p with blocking := rl } where
  settings := carries.settings
  blocker := by
    have whitelist := congrArg Blocker.whitelist carries.blocker
    exact congrArg (Blocker.mk _) whitelist
  https := carries.https
  ended := carries.ended

theorem Carries.updateBlockingWhitelist (carries : Carries env s p)
    (ubw : UpdateBlockingWhitelist) :
    Carries env { s with process := { s.process with
        blocker := s.process.blocker.updateWhitelist ubw } }
      { p with whitelist := ubw } where
  settings := carries.settings
  blocker := by
    have blacklist := congrArg Blocker.domainBlacklist carries.blocker
    exact congrArg (Blocker.mk · _) blacklist
  https := carries.https
  ended := carries.ended

/-- A step that the policy takes no part in leaves it what it was. -/
theorem step_skipped (carries : Carries env s p) {e : Event} {out : List Verdict} {s' : State}
    (hs : step env s e = some (out, s')) (apart : e.policy? = none) :
    out = [] ∧ Carries env s' p := by
  unfold step at hs
  split at hs
  · cases hs
  · cases e with
    | shells e =>
      obtain ⟨browser, stepped, same⟩ := Option.map_eq_some_iff.mp hs
      cases same
      refine ⟨rfl, carries.of_process rfl rfl ?_ rfl⟩
      rcases ShellRuns.step_settings stepped with same | ⟨settings, rfl, _⟩
      · exact same
      · cases apart
    | renderViewHost processId viewId webContents =>
      cases hs
      exact ⟨rfl, carries.of_process rfl rfl rfl rfl⟩
    | updateBlockingRules rl => cases apart
    | updateBlockingWhitelist ubw => cases apart
    | updateHttpsRules rl => cases apart
    | onBeforeURLRequest request => cases apart

/-- Every other step is a step of the policy, with the same answer. -/
theorem step_matched (keeps : Https.KeepsUnmatched env) (carries : Carries env s p) {e : Event}
    {d : Policy.Event} {out : List Verdict} {s' : State} (hs : step env s e = some (out, s'))
    (part : e.policy? = some d) :
    ∃ p', Policy.step env p d = some (out, p') ∧ Carries env s' p' := by
  unfold step at hs
  split at hs
  · cases hs
  · next runs =>
    have goes : p.ended = false := by rw [← carries.ended]; simpa using runs
    have enabled : ¬ p.ended = true := by rw [goes]; exact Bool.false_ne_true
    unfold Policy.step
    rw [if_neg enabled]
    cases e with
    | shells e =>
      cases e with
      | updateGlobalSettings settings =>
        cases hs
        cases part
        exact ⟨_, rfl, rfl, carries.blocker, carries.https, carries.ended⟩
      | launchShell parent => cases part
      | addNewContents opener => cases part
      | close shell => cases part
    | renderViewHost processId viewId webContents => cases part
    | updateBlockingRules rl =>
      cases hs
      cases part
      exact ⟨_, rfl, carries.updateBlockingRules rl⟩
    | updateBlockingWhitelist ubw =>
      cases hs
      cases part
      exact ⟨_, rfl, carries.updateBlockingWhitelist ubw⟩
    | updateHttpsRules rl =>
      cases hs
      cases part
      exact ⟨_, rfl, carries.updateHttpsRules rl⟩
    | onBeforeURLRequest request =>
      cases hs
      cases part
      have answered := carries.request keeps goes request
      rw [answered.1]
      exact ⟨_, rfl, answered.2⟩

/-- A page is upgraded, a third party blocked, and the rules that come last end the process. -/
def browsing : List Event :=
  [.shells (.launchShell 0),
    .updateHttpsRules ⟨[⟨["a.com".toList], [⟨"http:".toList, "https:".toList⟩]⟩]⟩,
    .onBeforeURLRequest homePage,
    .updateBlockingRules ⟨[⟨"example.com".toList, true, []⟩]⟩,
    .renderViewHost 1 2 (some 0),
    .onBeforeURLRequest ShellNetworkDelegate.siblingRequest,
    .updateHttpsRules ⟨[{}]⟩]

def browsingSettings : AllSettings where
  filters := { blacklistThirdParties := true }
  httpsRewrite := { enabled := true }

end DelegateRuns

end Seaturtle
