import Seaturtle.Https.Index

/-! Which matching rules of the list still reach a URL through the index. -/
namespace Seaturtle.Https
open SuffixWalk (Under)

/-- The entry names the host exactly, or is `*.d` for a `d` that the host is or is below. -/
def Covers (host entry : Str) : Prop :=
  ('*' ∉ entry ∧ entry = host) ∨ ∃ d, entry = '*' :: '.' :: d ∧ Under '.' d host

/-- Entries have no star, or are `*.` and a name with a dot. -/
def WellFormedHosts (rl : RuleList) : Prop :=
  ∀ rs ∈ rl.ruleSet, ∀ entry ∈ rs.host,
    '*' ∉ entry ∨ ∃ d, entry = '*' :: '.' :: d ∧ '.' ∈ d

def Rule.pair (rule : Rule) : Str × Str := (rule.«from», rule.«to»)

/-- The rule belongs to a rule set that covers the URL's host, and it matches the URL. -/
def Applies (env : Externals) (rl : RuleList) (url : Gurl) (rule : Rule) : Prop :=
  ∃ rs ∈ rl.ruleSet, (∃ entry ∈ rs.host, Covers (lowerHost url) entry) ∧ rule ∈ rs.rule ∧
    matchesRule env url.spec rule.pair = true

/-- The rules of the rule sets that are the last to name a key of the host. -/
def keptRules (rl : RuleList) (host : Str) : List Rule :=
  (keysFor host).flatMap fun k => (lastNaming rl.ruleSet k).elim [] (·.rule)

def keptMatch (env : Externals) (rl : RuleList) (url : Gurl) : Option Rule :=
  (keptRules rl (lowerHost url)).find? fun rule => matchesRule env url.spec rule.pair

/-- `MaybeRewrite` sets `new_url`, to what one of the applying rules makes of the URL. -/
def RewritesByRule (env : Externals) (rl : RuleList) (hr : HttpsRewriter)
    (settings : Settings.HttpsRewrite) (request : URLRequest) : Prop :=
  ∃ rule request', Applies env rl request.url rule ∧
    maybeRewrite env hr settings request =
      .ok (.ok, request', some (env.parse (replaced env request.url.spec rule.pair)))

/-- No rule applies; or the first kept match makes a valid URL; or no kept rule
matches and the forced upgrade happens to be what a lost rule makes. -/
def NoRuleLost (env : Externals) (rl : RuleList) (settings : Settings.HttpsRewrite)
    (url : Gurl) : Prop :=
  (¬ ∃ rule, Applies env rl url rule) ∨
  (∃ rule, keptMatch env rl url = some rule ∧
    (env.parse (replaced env url.spec rule.pair)).isValid = true) ∨
  (keptMatch env rl url = none ∧ settings.httpsOnly = true ∧ 4 ≤ url.spec.length ∧
    (env.parse (kHttps ++ url.spec.drop 4)).isValid = true ∧
    ∃ rule, Applies env rl url rule ∧
      env.parse (kHttps ++ url.spec.drop 4) = env.parse (replaced env url.spec rule.pair))

variable {env : Externals} {rl : RuleList} {hr : HttpsRewriter}

theorem covers_of_key (wf : WellFormedHosts rl) {rs : RuleSet} {entry host : Str}
    (member : rs ∈ rl.ruleSet) (named : entry ∈ rs.host) (key : hostKey entry ∈ keysFor host) :
    Covers host entry := by
  rcases wf rs member entry named with plain | ⟨d, rfl, _⟩
  · have exact : hostKey entry = .exact entry := by
      apply if_neg
      intro star
      apply plain
      exact List.mem_of_mem_head? star
    rw [exact, keysFor, List.mem_cons] at key
    rcases key with same | super
    · cases same
      exact .inl ⟨plain, rfl⟩
    · obtain ⟨d, _, impossible⟩ := List.mem_map.mp super
      cases impossible
  · have super : hostKey ('*' :: '.' :: d) = .super d := rfl
    rw [super, keysFor, List.mem_cons] at key
    rcases key with impossible | below
    · cases impossible
    · obtain ⟨d', hd', same⟩ := List.mem_map.mp below
      cases same
      exact .inr ⟨d, rfl, (SuffixWalk.mem_suffixes.mp hd').2⟩

theorem keptMatch_applies (wf : WellFormedHosts rl) {url : Gurl} {rule : Rule}
    (h : keptMatch env rl url = some rule) : Applies env rl url rule := by
  have hit := List.find?_some h
  obtain ⟨k, hk, hrule⟩ := List.mem_flatMap.mp (List.mem_of_find?_eq_some h)
  cases last : lastNaming rl.ruleSet k with
  | none => rw [last] at hrule; cases hrule
  | some rs =>
    rw [last] at hrule
    obtain ⟨member, entry, named, key⟩ := lastNaming_mem last
    have covers := covers_of_key wf member named (key ▸ hk)
    exact ⟨rs, member, ⟨entry, named, covers⟩, hrule, hit⟩

theorem rulesFor_find (built : updateRules env rl = .ok hr) (url : Gurl) :
    (hr.rulesFor (lowerHost url)).find? (matchesRule env url.spec) =
      (keptMatch env rl url).map Rule.pair := by
  have rules : hr.rulesFor (lowerHost url) = (keptRules rl (lowerHost url)).map Rule.pair := by
    rw [HttpsRewriter.rulesFor, keptRules, List.map_flatMap]
    congr 1
    funext k
    rw [HttpsRewriter.rulesAt, index_lookup built]
    cases lastNaming rl.ruleSet k <;> rfl
  rw [rules, List.find?_map]
  rfl

theorem maybeRewrite_kept (keeps : KeepsUnmatched env) (built : updateRules env rl = .ok hr)
    {settings : Settings.HttpsRewrite} {request : URLRequest} (enabled : settings.enabled = true)
    (http : request.url.scheme = kHttp) (fresh : request.url.spec ∉ request.prevRewrites) :
    maybeRewrite env hr settings request =
      match keptMatch env rl request.url with
      | some rule => (fun r => (.ok, r.1, some r.2)) <$>
          doRewrite env (replaced env request.url.spec rule.pair) request
      | none =>
        if settings.httpsOnly then do
          let rewrite ← forcedRewrite request.url.spec
          (fun r => (.ok, r.1, some r.2)) <$> doRewrite env rewrite request
        else .ok (.ok, request, none) := by
  rw [maybeRewrite_eq keeps hr enabled http fresh, rulesFor_find built]
  cases keptMatch env rl request.url with
  | some rule => rfl
  | none => rfl

section
variable {settings : Settings.HttpsRewrite} {request : URLRequest}

/-- Where no kept rule matches, only the forced upgrade makes a new URL. -/
theorem forced_of_rewritten {request' : URLRequest} {newUrl : Gurl}
    (result : (if settings.httpsOnly then do
        let rewrite ← forcedRewrite request.url.spec
        (fun r : URLRequest × Gurl => (NetError.ok, r.1, some r.2)) <$>
          doRewrite env rewrite request
      else .ok (.ok, request, none)) = .ok (.ok, request', some newUrl)) :
    settings.httpsOnly = true ∧ 4 ≤ request.url.spec.length ∧
      (env.parse (kHttps ++ request.url.spec.drop 4)).isValid = true ∧
      env.parse (kHttps ++ request.url.spec.drop 4) = newUrl := by
  cases only : settings.httpsOnly with
  | false => simp [only] at result
  | true =>
    simp only [only, if_true] at result
    obtain ⟨rewrite, forced, result⟩ := Checked.bind_eq_ok.mp result
    obtain ⟨⟨after, parsedUrl⟩, done, same⟩ := Checked.map_eq_ok.mp result
    obtain ⟨long, rfl⟩ := forcedRewrite_eq.mp forced
    obtain ⟨_, parsed, valid⟩ := doRewrite_ok done
    simp only [Prod.mk.injEq, Option.some.injEq] at same
    exact ⟨rfl, long, parsed ▸ valid, parsed ▸ same.2.2⟩

theorem forced_rewrites (only : settings.httpsOnly = true) (long : 4 ≤ request.url.spec.length)
    (valid : (env.parse (kHttps ++ request.url.spec.drop 4)).isValid = true) :
    (if settings.httpsOnly then do
        let rewrite ← forcedRewrite request.url.spec
        (fun r : URLRequest × Gurl => (NetError.ok, r.1, some r.2)) <$>
          doRewrite env rewrite request
      else .ok (.ok, request, none)) =
      .ok (.ok, request.recordRewrite, some (env.parse (kHttps ++ request.url.spec.drop 4))) := by
  simp only [only, if_true, forcedRewrite_eq.mpr ⟨long, rfl⟩]
  simp only [bind, Except.bind, doRewrite_valid valid]
  rfl

end

/-- A matching rule that covers the host takes effect exactly where the later rule
sets that name the same hosts leave one that matches. Keys are compared by content here; when
they are alive is the subject of `Https.Storage`. -/
theorem rules_found_iff_not_overwritten (env : Externals) (keeps : KeepsUnmatched env)
    (rl : RuleList) (wf : WellFormedHosts rl) (hr : HttpsRewriter)
    (built : updateRules env rl = .ok hr) (settings : Settings.HttpsRewrite)
    (enabled : settings.enabled = true) (request : URLRequest)
    (http : request.url.scheme = kHttp) (fresh : request.url.spec ∉ request.prevRewrites) :
    ((∃ rule, Applies env rl request.url rule) → RewritesByRule env rl hr settings request) ↔
      NoRuleLost env rl settings request.url := by
  have outcome := maybeRewrite_kept keeps built enabled http fresh
  constructor
  · intro found
    by_cases none : ∃ rule, Applies env rl request.url rule
    · obtain ⟨rule, request', applies, result⟩ := found none
      rw [outcome] at result
      cases kept : keptMatch env rl request.url with
      | some first =>
        rw [kept] at result
        obtain ⟨⟨after, newUrl⟩, done, _⟩ := Checked.map_eq_ok.mp result
        obtain ⟨_, parsed, valid⟩ := doRewrite_ok done
        exact .inr (.inl ⟨first, kept, parsed ▸ valid⟩)
      | none =>
        rw [kept] at result
        obtain ⟨only, long, valid, same⟩ := forced_of_rewritten result
        exact .inr (.inr ⟨kept, only, long, valid, rule, applies, same⟩)
    · exact .inl none
  · rintro (none | ⟨rule, kept, valid⟩ | ⟨kept, only, long, valid, rule, applies, same⟩) found
    · exact absurd found none
    · refine ⟨rule, request.recordRewrite, keptMatch_applies wf kept, ?_⟩
      rw [outcome, kept]
      simp only [doRewrite_valid valid]
      rfl
    · refine ⟨rule, request.recordRewrite, applies, ?_⟩
      rw [outcome, kept, ← same]
      exact forced_rewrites only long valid

def overwritten : RuleList :=
  ⟨[⟨["a.com".toList], [⟨"http:".toList, "https:".toList⟩]⟩,
    ⟨["a.com".toList], [⟨"http://a.com/old".toList, "https://a.com/new".toList⟩]⟩]⟩

theorem overwritten_entries {rs : RuleSet} (member : rs ∈ overwritten.ruleSet) :
    rs.rule ≠ [] ∧ rs.host = ["a.com".toList] := by
  simp only [overwritten, List.mem_cons, List.not_mem_nil, or_false] at member
  rcases member with rfl | rfl
  · exact ⟨List.cons_ne_nil _ _, rfl⟩
  · exact ⟨List.cons_ne_nil _ _, rfl⟩

theorem overwritten_well_formed : WellFormedHosts overwritten := by
  intro rs member entry named
  rw [(overwritten_entries member).2, List.mem_singleton] at named
  exact .inl (by rw [named]; decide)

theorem overwritten_builds : ∃ hr, updateRules literal overwritten = .ok hr := by
  apply updateRules_total
  · intro _ _ _ _; rfl
  · exact fun _ member => (overwritten_entries member).1
  · intro rs member entry named
    rw [(overwritten_entries member).2, List.mem_singleton] at named
    exact .inl (by rw [named]; decide)

theorem rules_found_iff_overwritten_list :
    ∃ hr, updateRules literal overwritten = .ok hr ∧
      (((∃ rule, Applies literal overwritten homePage.url rule) →
        RewritesByRule literal overwritten hr ⟨true, false⟩ homePage) ↔
          NoRuleLost literal overwritten ⟨true, false⟩ homePage.url) := by
  obtain ⟨hr, built⟩ := overwritten_builds
  exact ⟨hr, built, rules_found_iff_not_overwritten literal literal_keeps_unmatched overwritten
    overwritten_well_formed hr built ⟨true, false⟩ rfl homePage (by decide) (by decide)⟩

/-- The first rule set's rule matches the page, and the page stays on http. -/
theorem overwritten_rule_lost :
    ∃ hr, updateRules literal overwritten = .ok hr ∧
      ¬ ((∃ rule, Applies literal overwritten homePage.url rule) →
        RewritesByRule literal overwritten hr ⟨true, false⟩ homePage) := by
  obtain ⟨hr, built⟩ := overwritten_builds
  refine ⟨hr, built, fun found => ?_⟩
  have covers : Covers (lowerHost homePage.url) "a.com".toList := .inl (by decide +kernel)
  have applies : Applies literal overwritten homePage.url ⟨"http:".toList, "https:".toList⟩ :=
    ⟨⟨["a.com".toList], [⟨"http:".toList, "https:".toList⟩]⟩, List.mem_cons_self,
      ⟨"a.com".toList, List.mem_cons_self, covers⟩, List.mem_cons_self, by decide +kernel⟩
  obtain ⟨rule, request', _, result⟩ := found ⟨_, applies⟩
  have none : keptMatch literal overwritten homePage.url = none := by decide +kernel
  rw [maybeRewrite_kept literal_keeps_unmatched built rfl (by decide) (by decide), none] at result
  cases result

end Seaturtle.Https
