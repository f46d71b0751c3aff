import Seaturtle.Https.Rewriter

/-! The index that `UpdateRules` builds, and the order in which `MaybeRewrite`
consults it. A later rule set takes the place of an earlier one under every key
they share. -/
namespace Seaturtle.Https
open SuffixWalk (Under)

/-- What a host entry is filed under: an exact host, or the name behind `*.`. -/
inductive Key where
  | exact (host : Str)
  | super (name : Str)
  deriving DecidableEq

def hostKey (entry : Str) : Key :=
  if entry.head? = some '*' then .super (entry.drop 2) else .exact entry

def HttpsRewriter.lookup (hr : HttpsRewriter) : Key → Option CompiledRuleSet
  | .exact host => hr.exactHost host
  | .super name => hr.superHost name

def compiled (rs : RuleSet) : CompiledRuleSet := ⟨rs.rule.map fun r => (r.«from», r.«to»)⟩

def RuleSet.names (rs : RuleSet) (k : Key) : Bool := decide (k ∈ rs.host.map hostKey)

/-- The last rule set of the list that names the key. -/
def lastNaming (sets : List RuleSet) (k : Key) : Option RuleSet :=
  (sets.filter (·.names k)).getLast?

theorem lastNaming_mem {sets : List RuleSet} {k : Key} {rs : RuleSet}
    (h : lastNaming sets k = some rs) : rs ∈ sets ∧ ∃ entry ∈ rs.host, hostKey entry = k := by
  have member := List.mem_filter.mp (List.mem_of_getLast? h)
  have named : k ∈ rs.host.map hostKey := of_decide_eq_true member.2
  exact ⟨member.1, List.mem_map.mp named⟩

theorem lastNaming_append (sets : List RuleSet) (rs : RuleSet) (k : Key) :
    lastNaming (sets ++ [rs]) k = if rs.names k then some rs else lastNaming sets k := by
  rw [lastNaming, List.filter_append, List.getLast?_append]
  cases names : rs.names k
  · simp [lastNaming, names]
  · simp [names]

variable {env : Externals}

theorem compile_ok {rs : RuleSet} {crs : CompiledRuleSet} (h : compile env rs = .ok crs) :
    crs = compiled rs := by
  obtain ⟨rules, done, hc⟩ := Checked.bind_eq_ok.mp h
  cases hc
  rw [Checked.mapM_checked done]
  rfl

theorem idxOf?_star (entry : Str) : entry.idxOf? '*' = some 0 ↔ entry.head? = some '*' := by
  cases entry with
  | nil => simp
  | cons c cs =>
    rw [List.idxOf?_cons, List.head?_cons]
    by_cases star : c = '*'
    · simp [star]
    · simp [star]

theorem addHost_lookup {crs : CompiledRuleSet} {hr hr' : HttpsRewriter} {entry : Str}
    (h : addHost crs hr entry = .ok hr') (k : Key) :
    hr'.lookup k = if hostKey entry = k then some crs else hr.lookup k := by
  unfold addHost at h
  split at h
  · next star =>
    have key : hostKey entry = .super (entry.drop 2) := if_pos ((idxOf?_star entry).mp star)
    split at h
    · cases h
    · cases h
      rw [key]
      cases k with
      | exact host => simp [HttpsRewriter.lookup]
      | super name => simp [HttpsRewriter.lookup, HashMap.set_apply, eq_comm]
  · cases h
  · next plain =>
    have key : hostKey entry = .exact entry := by
      apply if_neg
      intro star
      rw [(idxOf?_star entry).mpr star] at plain
      cases plain
    cases h
    rw [key]
    cases k with
    | exact host => simp [HttpsRewriter.lookup, HashMap.set_apply, eq_comm]
    | super name => simp [HttpsRewriter.lookup]

theorem addRuleSet_lookup {rs : RuleSet} {hr hr' : HttpsRewriter}
    (h : addRuleSet env hr rs = .ok hr') (k : Key) :
    hr'.lookup k = if rs.names k then some (compiled rs) else hr.lookup k := by
  obtain ⟨crs, compiles, rest⟩ := Checked.bind_eq_ok.mp h
  cases compile_ok compiles
  split at rest
  · cases rest
  · have filed := Checked.foldlM_induct (fun seen (s : HttpsRewriter) =>
      s.lookup k = if k ∈ seen.map hostKey then some (compiled rs) else hr.lookup k)
      (fun seen entry s s' before added => by
        rw [addHost_lookup added k, before]
        by_cases here : hostKey entry = k
        · simp [here]
        · simp [here, Ne.symm here]) rs.host (by simp) rest
    rw [filed, RuleSet.names]
    simp only [decide_eq_true_eq]

/-- After `UpdateRules` each key leads to the last rule set that names it. -/
theorem index_lookup {rl : RuleList} {hr : HttpsRewriter} (h : updateRules env rl = .ok hr)
    (k : Key) : hr.lookup k = (lastNaming rl.ruleSet k).map compiled := by
  apply Checked.foldlM_induct (fun seen (s : HttpsRewriter) =>
    s.lookup k = (lastNaming seen k).map compiled) _ _ _ h
  · intro seen rs s s' before added
    rw [addRuleSet_lookup added k, before, lastNaming_append]
    cases rs.names k <;> rfl
  · cases k <;> rfl

/-- `UpdateRules` ends the process on no list whose patterns compile, whose rule sets
have rules and whose entries have a star at most in a leading `*` of two characters. -/
theorem updateRules_total {rl : RuleList}
    (compiles : ∀ rs ∈ rl.ruleSet, ∀ r ∈ rs.rule, env.re2Ok r.«from» = true)
    (nonempty : ∀ rs ∈ rl.ruleSet, rs.rule ≠ [])
    (hosts : ∀ rs ∈ rl.ruleSet, ∀ entry ∈ rs.host,
      '*' ∉ entry ∨ (entry.head? = some '*' ∧ 2 ≤ entry.length)) :
    ∃ hr, updateRules env rl = .ok hr := by
  refine Checked.foldlM_total (fun hr rs member => ?_) ({} : HttpsRewriter)
  have rules : compile env rs = .ok (compiled rs) := by
    rw [compile, Checked.mapM_total _ _ (compiles rs member)]
    rfl
  have some : (compiled rs).empty = false := by
    rw [CompiledRuleSet.empty, compiled, List.isEmpty_eq_false_iff]
    simpa using nonempty rs member
  simp only [addRuleSet, rules, bind, Except.bind, some, Bool.false_eq_true, if_false]
  refine Checked.foldlM_total (fun s entry named => ?_) hr
  unfold addHost
  rcases hosts rs member entry named with plain | ⟨star, long⟩
  · rw [List.idxOf?_eq_none_iff.mpr plain]
    exact ⟨_, rfl⟩
  · rw [(idxOf?_star entry).mpr star]
    exact ⟨_, if_neg (by omega)⟩

/-! The order of the lookups, where a failed `RE2::Replace` leaves its text alone. -/

/-- `RE2::Replace` leaves the string unchanged where it returns false. -/
def KeepsUnmatched (env : Externals) : Prop :=
  ∀ pattern rewrite text, (env.re2Replace pattern rewrite text).1 = false →
    (env.re2Replace pattern rewrite text).2 = text

theorem literal_keeps_unmatched : KeepsUnmatched literal := by
  intro pattern rewrite text
  change (replaceLiteral pattern rewrite text).1 = false →
    (replaceLiteral pattern rewrite text).2 = text
  induction text with
  | nil =>
    unfold replaceLiteral
    split
    · intro h; cases h
    · intro _; rfl
  | cons c cs ih =>
    unfold replaceLiteral
    split
    · intro h; cases h
    · intro h; exact congrArg (c :: ·) (ih h)

def matchesRule (env : Externals) (spec : Str) (rule : Str × Str) : Bool :=
  (env.re2Replace rule.1 rule.2 spec).1

def replaced (env : Externals) (spec : Str) (rule : Str × Str) : Str :=
  (env.re2Replace rule.1 rule.2 spec).2

def keysFor (host : Str) : List Key :=
  .exact host :: (SuffixWalk.suffixes '.' host).map .super

def HttpsRewriter.rulesAt (hr : HttpsRewriter) (k : Key) : List (Str × Str) :=
  (hr.lookup k).elim [] (·.rules)

/-- The rules that a host's rewrite may use, first choice first. -/
def HttpsRewriter.rulesFor (hr : HttpsRewriter) (host : Str) : List (Str × Str) :=
  (keysFor host).flatMap hr.rulesAt

def rewriteBy (env : Externals) (request : URLRequest) :
    Option (Str × Str) → Except Fatal (Option (URLRequest × Gurl))
  | none => .ok none
  | some rule => some <$> doRewrite env (replaced env request.url.spec rule) request

theorem tryRules_eq (keeps : KeepsUnmatched env) (request : URLRequest)
    (rules : List (Str × Str)) :
    tryRules env request request.url.spec rules =
      rewriteBy env request (rules.find? (matchesRule env request.url.spec)) := by
  induction rules with
  | nil => rfl
  | cons rule rules ih =>
    rw [tryRules]
    split
    · next text replaces =>
      have hit : matchesRule env request.url.spec rule = true := by rw [matchesRule, replaces]
      rw [List.find?_cons_of_pos hit, rewriteBy, replaced, replaces]
    · next text replaces =>
      have miss : ¬ matchesRule env request.url.spec rule = true := by
        rw [matchesRule, replaces]
        exact Bool.false_ne_true
      have same : text = request.url.spec := by
        have kept := keeps rule.1 rule.2 request.url.spec (by rw [replaces])
        rwa [replaces] at kept
      rw [List.find?_cons_of_neg miss, same, ih]

theorem rewriteFor_eq (keeps : KeepsUnmatched env) {request : URLRequest}
    (http : request.url.scheme = kHttp) (rules : HostToRules) (host : Str) :
    rewriteFor env rules request host = rewriteBy env request
      (((rules host).elim [] (·.rules)).find? (matchesRule env request.url.spec)) := by
  unfold rewriteFor
  cases rules host with
  | none => rfl
  | some crs =>
    simp only [CompiledRuleSet.maybeRewrite, Gurl.not_https_of_http http]
    exact tryRules_eq keeps request crs.rules

theorem superHost_eq (keeps : KeepsUnmatched env) (hr : HttpsRewriter) (host : Str)
    {request : URLRequest} (http : request.url.scheme = kHttp) :
    maybeRewriteForSuperHost env hr host request = rewriteBy env request
      ((((SuffixWalk.suffixes '.' host).map Key.super).flatMap hr.rulesAt).find?
        (matchesRule env request.url.spec)) := by
  rw [maybeRewriteForSuperHost, Gurl.not_https_of_http http, SuffixWalk.search_eq_findSome?]
  induction SuffixWalk.suffixes '.' host with
  | nil => rfl
  | cons d ds ih =>
    simp only [rewriteFor_eq keeps http] at ih ⊢
    rw [List.findSome?_cons, List.map_cons, List.flatMap_cons, List.find?_append,
      HttpsRewriter.rulesAt, HttpsRewriter.lookup]
    cases (((hr.superHost d).elim [] (·.rules)).find? (matchesRule env request.url.spec)) with
    | none => exact ih
    | some rule =>
      simp only [rewriteBy, Option.some_or]
      cases doRewrite env (replaced env request.url.spec rule) request <;> rfl

/-- The rewrite is by the first rule that matches, over the exact host's rule set
and then those of the super hosts, longest first. -/
theorem rewriteByHost_eq (keeps : KeepsUnmatched env) (hr : HttpsRewriter) (host : Str)
    {request : URLRequest} (http : request.url.scheme = kHttp) :
    rewriteByHost env hr host request = rewriteBy env request
      ((hr.rulesFor host).find? (matchesRule env request.url.spec)) := by
  rw [rewriteByHost, HttpsRewriter.rulesFor, keysFor, List.flatMap_cons, List.find?_append,
    rewriteFor_eq keeps http, HttpsRewriter.rulesAt, HttpsRewriter.lookup]
  cases (((hr.exactHost host).elim [] (·.rules)).find? (matchesRule env request.url.spec)) with
  | none => exact superHost_eq keeps hr host http
  | some rule =>
    simp only [rewriteBy, Option.some_or]
    cases doRewrite env (replaced env request.url.spec rule) request <;> rfl

theorem doRewrite_valid {rewrite : Str} {request : URLRequest}
    (valid : (env.parse rewrite).isValid = true) :
    doRewrite env rewrite request = .ok (request.recordRewrite, env.parse rewrite) := by
  rw [doRewrite, if_pos valid]

theorem forcedRewrite_eq {spec rewrite : Str} :
    forcedRewrite spec = .ok rewrite ↔ 4 ≤ spec.length ∧ rewrite = kHttps ++ spec.drop 4 := by
  unfold forcedRewrite
  split
  · constructor
    · intro h; cases h
    · rintro ⟨long, _⟩; omega
  · constructor
    · intro h; cases h; exact ⟨by omega, rfl⟩
    · rintro ⟨_, rfl⟩; rfl

/-- What is left of `MaybeRewrite` behind its early returns: the first rule that
matches, or the forced upgrade. -/
theorem maybeRewrite_eq (keeps : KeepsUnmatched env) (hr : HttpsRewriter)
    {settings : Settings.HttpsRewrite} {request : URLRequest} (enabled : settings.enabled = true)
    (http : request.url.scheme = kHttp) (fresh : request.url.spec ∉ request.prevRewrites) :
    maybeRewrite env hr settings request =
      match (hr.rulesFor (lowerHost request.url)).find? (matchesRule env request.url.spec) with
      | some rule => (fun r => (.ok, r.1, some r.2)) <$>
          doRewrite env (replaced env request.url.spec rule) request
      | none =>
        if settings.httpsOnly then do
          let rewrite ← forcedRewrite request.url.spec
          (fun r => (.ok, r.1, some r.2)) <$> doRewrite env rewrite request
        else .ok (.ok, request, none) := by
  have scheme : request.url.schemeIs kHttp = true := by rw [Gurl.schemeIs, http]; decide
  simp only [maybeRewrite, enabled, scheme, fresh, Bool.not_true, Bool.false_eq_true, if_false]
  rw [rewriteHttp, rewriteByHost_eq keeps hr _ http]
  cases (hr.rulesFor (lowerHost request.url)).find? (matchesRule env request.url.spec) with
  | some rule =>
    simp only [rewriteBy]
    cases doRewrite env (replaced env request.url.spec rule) request <;> rfl
  | none =>
    cases settings.httpsOnly with
    | false => rfl
    | true =>
      simp only [rewriteBy, if_true]
      cases forced : forcedRewrite request.url.spec with
      | error e => rfl
      | ok rewrite =>
        simp only [bind, Except.bind]
        cases doRewrite env rewrite request <;> rfl

end Seaturtle.Https
