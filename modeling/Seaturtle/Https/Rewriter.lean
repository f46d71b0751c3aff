import Seaturtle.Lib.Checked
import Seaturtle.Net.Request
import Seaturtle.Settings

/-! The HTTPS rewriter: the index that `UpdateRules` builds and the lookups of
`MaybeRewrite`. A failed `CHECK` and an exception end the process; both are
`.error` here. RE2 and the URL parser are parameters. -/
namespace Seaturtle.Https

structure Rule where
  «from» : Str := []
  «to» : Str := []
  deriving DecidableEq

structure RuleSet where
  host : List Str := []
  rule : List Rule := []
  deriving DecidableEq

structure RuleList where
  ruleSet : List RuleSet := []
  deriving DecidableEq

/-- The code outside the repository that the rewriter calls. -/
structure Externals where
  parse : Str → Gurl
  re2Ok : Str → Bool
  /-- `RE2::Replace(&text, from, to)`: what it returns, and the text it leaves. -/
  re2Replace : Str → Str → Str → Bool × Str

inductive Fatal where
  | regexError (pattern : Str)
  | emptyHttpsRuleset
  | skippingHost (host : Str)
  | outOfRange
  | newUrlInvalid
  | schemeIsHttps
  deriving DecidableEq

/-- `rules_`: the pattern and the rewrite of each rule. `hosts_` only keeps the
keys' storage alive. -/
structure CompiledRuleSet where
  rules : List (Str × Str)
  deriving DecidableEq

abbrev HostToRules := HashMap Str CompiledRuleSet

structure HttpsRewriter where
  exactHost : HostToRules := .empty
  superHost : HostToRules := .empty

variable (env : Externals)

/-- The constructor of `CompiledRuleSet`; a bad rewrite string is only logged. -/
def compile (rs : RuleSet) : Except Fatal CompiledRuleSet := do
  let rules ← rs.rule.mapM fun r =>
    if env.re2Ok r.«from» then .ok (r.«from», r.«to») else .error (.regexError r.«from»)
  return ⟨rules⟩

def CompiledRuleSet.empty (crs : CompiledRuleSet) : Bool := crs.rules.isEmpty

/-- One host entry of a rule set, filed under the key it stands for. -/
def addHost (crs : CompiledRuleSet) (hr : HttpsRewriter) (host : Str) :
    Except Fatal HttpsRewriter :=
  match host.idxOf? '*' with
  | some 0 =>
    -- std::string(host, 2) throws where the entry is the bare star
    if host.length < 2 then .error .outOfRange
    else .ok { hr with superHost := hr.superHost.set (host.drop 2) crs }
  | some _ => .error (.skippingHost host)
  | none => .ok { hr with exactHost := hr.exactHost.set host crs }

def addRuleSet (hr : HttpsRewriter) (rs : RuleSet) : Except Fatal HttpsRewriter := do
  let crs ← compile env rs
  if crs.empty then .error .emptyHttpsRuleset
  else rs.host.foldlM (addHost crs) hr

def updateRules (rl : RuleList) : Except Fatal HttpsRewriter :=
  rl.ruleSet.foldlM (addRuleSet env) {}

def doRewrite (rewrite : Str) (request : URLRequest) : Except Fatal (URLRequest × Gurl) :=
  let newUrl := env.parse rewrite
  if newUrl.isValid then .ok (request.recordRewrite, newUrl) else .error .newUrlInvalid

/-- The rule loop. `rewrite` is the text that the last `RE2::Replace` left. -/
def tryRules (request : URLRequest) (rewrite : Str) :
    List (Str × Str) → Except Fatal (Option (URLRequest × Gurl))
  | [] => .ok none
  | rule :: rules =>
    match env.re2Replace rule.1 rule.2 rewrite with
    | (true, text) => some <$> doRewrite env text request
    | (false, text) => tryRules request text rules

/-- `none` where no rule matched. -/
def CompiledRuleSet.maybeRewrite (crs : CompiledRuleSet) (request : URLRequest) :
    Except Fatal (Option (URLRequest × Gurl)) :=
  if request.url.schemeIs kHttps then .error .schemeIsHttps
  else tryRules env request request.url.spec crs.rules

def rewriteFor (rules : HostToRules) (request : URLRequest) (host : Str) :
    Except Fatal (Option (URLRequest × Gurl)) :=
  match rules host with
  | none => .ok none
  | some crs => crs.maybeRewrite env request

/-- The walk over the host's suffixes returns at the first rewrite. -/
def maybeRewriteForSuperHost (hr : HttpsRewriter) (host : Str) (request : URLRequest) :
    Except Fatal (Option (URLRequest × Gurl)) :=
  if request.url.schemeIs kHttps then .error .schemeIsHttps
  else
    match SuffixWalk.search '.' (fun h =>
        match rewriteFor env hr.superHost request h with
        | .ok none => none
        | .ok (some r) => some (.ok r)
        | .error e => some (.error e)) host with
    | some r => some <$> r
    | none => .ok none

def rewriteByHost (hr : HttpsRewriter) (host : Str) (request : URLRequest) :
    Except Fatal (Option (URLRequest × Gurl)) := do
  match ← rewriteFor env hr.exactHost request host with
  | some r => return some r
  | none => maybeRewriteForSuperHost env hr host request

def forcedRewrite (spec : Str) : Except Fatal Str :=
  if spec.length < 4 then .error .outOfRange else .ok (kHttps ++ spec.drop 4)

/-- The part of `MaybeRewrite` behind its early returns. -/
def rewriteHttp (hr : HttpsRewriter) (settings : Settings.HttpsRewrite) (request : URLRequest) :
    Except Fatal (URLRequest × Option Gurl) := do
  match ← rewriteByHost env hr (lowerHost request.url) request with
  | some (request', newUrl) => return (request', some newUrl)
  | none =>
    if settings.httpsOnly then
      let rewrite ← forcedRewrite request.url.spec
      let (request', newUrl) ← doRewrite env rewrite request
      return (request', some newUrl)
    else return (request, none)

/-- The error code, the request afterwards and `new_url` where it was set. -/
def maybeRewrite (hr : HttpsRewriter) (settings : Settings.HttpsRewrite) (request : URLRequest) :
    Except Fatal (NetError × URLRequest × Option Gurl) :=
  if !settings.enabled then .ok (.ok, request, none)
  else if !request.url.schemeIs kHttp then .ok (.ok, request, none)
  else if request.url.spec ∈ request.prevRewrites then
    if settings.httpsOnly then .ok (.errUnsafeRedirect, request, none)
    else .ok (.ok, request, none)
  else (fun r => (.ok, r)) <$> rewriteHttp env hr settings request

def replaceLiteral (pattern rewrite : Str) (text : Str) : Bool × Str :=
  if pattern.isPrefixOf text then (true, rewrite ++ text.drop pattern.length)
  else match text with
    | [] => (false, [])
    | c :: cs =>
      let rest := replaceLiteral pattern rewrite cs
      (rest.1, c :: rest.2)

/-- RE2 on patterns without metacharacters. -/
def literal : Externals where
  parse := Gurl.parseCanonical
  re2Ok _ := true
  re2Replace := replaceLiteral

/-! What the rewriter can do to a request, whatever its rules are. -/

variable {env} {hr : HttpsRewriter} {settings : Settings.HttpsRewrite}
  {request request' : URLRequest} {newUrl : Gurl}

theorem doRewrite_ok {rewrite : Str} (h : doRewrite env rewrite request = .ok (request', newUrl)) :
    request' = request.recordRewrite ∧ newUrl = env.parse rewrite ∧ newUrl.isValid = true := by
  simp only [doRewrite] at h
  split at h
  · next valid =>
    cases h
    exact ⟨rfl, rfl, valid⟩
  · cases h

theorem tryRules_records {rules : List (Str × Str)} {text : Str}
    (h : tryRules env request text rules = .ok (some (request', newUrl))) :
    request' = request.recordRewrite := by
  induction rules generalizing text with
  | nil => cases h
  | cons rule rules ih =>
    rw [tryRules] at h
    split at h
    · obtain ⟨r, done, hr⟩ := Checked.map_eq_ok.mp h
      cases hr
      exact (doRewrite_ok done).1
    · exact ih h

theorem rewriteFor_records {rules : HostToRules} {host : Str}
    (h : rewriteFor env rules request host = .ok (some (request', newUrl))) :
    request' = request.recordRewrite := by
  unfold rewriteFor at h
  split at h
  · cases h
  · unfold CompiledRuleSet.maybeRewrite at h
    split at h
    · cases h
    · exact tryRules_records h

theorem superHost_records {host : Str}
    (h : maybeRewriteForSuperHost env hr host request = .ok (some (request', newUrl))) :
    request' = request.recordRewrite := by
  unfold maybeRewriteForSuperHost at h
  split at h
  · cases h
  · split at h
    · next r found =>
      rw [SuffixWalk.search_eq_findSome?] at found
      obtain ⟨d, _, visit⟩ := List.exists_of_findSome?_eq_some found
      split at visit
      · cases visit
      · next done =>
        cases visit
        cases h
        exact rewriteFor_records done
      · cases visit
        cases h
    · cases h

theorem rewriteByHost_records {host : Str}
    (h : rewriteByHost env hr host request = .ok (some (request', newUrl))) :
    request' = request.recordRewrite := by
  obtain ⟨r, exact, rest⟩ := Checked.bind_eq_ok.mp h
  cases r with
  | none => exact superHost_records rest
  | some r =>
    cases rest
    exact rewriteFor_records exact

theorem rewriteHttp_cases {out : Option Gurl}
    (h : rewriteHttp env hr settings request = .ok (request', out)) :
    (request' = request ∧ out = none ∧ settings.httpsOnly = false) ∨
      (request' = request.recordRewrite ∧ ∃ u, out = some u) := by
  obtain ⟨r, byHost, rest⟩ := Checked.bind_eq_ok.mp h
  cases r with
  | some r =>
    cases rest
    exact .inr ⟨rewriteByHost_records byHost, r.2, rfl⟩
  | none =>
    cases only : settings.httpsOnly with
    | false =>
      simp only [only] at rest
      cases rest
      exact .inl ⟨rfl, rfl, rfl⟩
    | true =>
      simp only [only, if_true] at rest
      obtain ⟨rewrite, _, rest⟩ := Checked.bind_eq_ok.mp rest
      obtain ⟨r, done, rest⟩ := Checked.bind_eq_ok.mp rest
      cases rest
      exact .inr ⟨(doRewrite_ok done).1, r.2, rfl⟩

/-- Everything a call that returns can do: leave the request alone, refuse an
http URL that was rewritten before, or rewrite an http URL and record it. -/
theorem maybeRewrite_cases {code : NetError} {out : Option Gurl}
    (h : maybeRewrite env hr settings request = .ok (code, request', out)) :
    (code = .ok ∧ request' = request ∧ out = none ∧
      (settings.enabled = true → settings.httpsOnly = true → request.url.scheme ≠ kHttp)) ∨
    (code = .errUnsafeRedirect ∧ request' = request ∧ out = none ∧ settings.httpsOnly = true ∧
      request.url.scheme = kHttp ∧ request.url.spec ∈ request.prevRewrites) ∨
    (code = .ok ∧ request' = request.recordRewrite ∧ (∃ u, out = some u) ∧
      settings.enabled = true ∧ request.url.scheme = kHttp ∧
      request.url.spec ∉ request.prevRewrites) := by
  unfold maybeRewrite at h
  split at h
  · next off =>
    cases h
    exact .inl ⟨rfl, rfl, rfl, fun on => by simp [on] at off⟩
  · next on =>
    have enabled : settings.enabled = true := by simpa using on
    split at h
    · next other =>
      cases h
      exact .inl ⟨rfl, rfl, rfl, fun _ _ => by simpa [Gurl.schemeIs] using other⟩
    · next http =>
      have scheme : request.url.scheme = kHttp := by simpa [Gurl.schemeIs] using http
      split at h
      · next again =>
        split at h
        · next only =>
          cases h
          exact .inr (.inl ⟨rfl, rfl, rfl, only, scheme, again⟩)
        · next lax =>
          cases h
          exact .inl ⟨rfl, rfl, rfl, fun _ only => absurd only lax⟩
      · next first =>
        obtain ⟨r, done, hr⟩ := Checked.map_eq_ok.mp h
        cases hr
        rcases rewriteHttp_cases done with ⟨rfl, rfl, lax⟩ | ⟨rfl, u, rfl⟩
        · exact .inl ⟨rfl, rfl, rfl, fun _ only => by rw [lax] at only; cases only⟩
        · exact .inr (.inr ⟨rfl, rfl, ⟨u, rfl⟩, enabled, scheme, first⟩)

/-- The one error code: under `https_only` a URL is not let through a second time. -/
theorem maybeRewrite_refuses_iff {code : NetError} {out : Option Gurl}
    (h : maybeRewrite env hr settings request = .ok (code, request', out)) :
    code ≠ .ok ↔ settings.enabled = true ∧ settings.httpsOnly = true ∧
      request.url.scheme = kHttp ∧ request.url.spec ∈ request.prevRewrites := by
  rcases maybeRewrite_cases h with ⟨rfl, _, _, other⟩ | ⟨rfl, _, _, only, http, again⟩ |
    ⟨rfl, _, _, _, _, first⟩
  · apply iff_of_false (fun fails => fails rfl)
    rintro ⟨enabled, only, http, _⟩
    exact other enabled only http
  · refine iff_of_true (fun impossible => by cases impossible) ⟨?_, only, http, again⟩
    by_contra off
    rw [maybeRewrite, if_pos (by simp [off])] at h
    cases h
  · exact iff_of_false (fun fails => fails rfl) fun again => first again.2.2.2

end Seaturtle.Https
