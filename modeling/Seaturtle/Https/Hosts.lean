import Seaturtle.Https.Index

/-! Which rule sets a call of `MaybeRewrite` consults, and whether they are for the
host. The lookups are run once more with the keys at which they found something. -/
namespace Seaturtle.Https
open SuffixWalk (Under)

section Lookups
variable (env : Externals) (hr : HttpsRewriter) (request : URLRequest)

/-- The keys at which `CompiledRuleSet::MaybeRewrite` was called, and what came out. -/
abbrev Traced := List Key × Except Fatal (Option (URLRequest × Gurl))

def tracedFor (k : Key) : Traced :=
  match hr.lookup k with
  | none => ([], .ok none)
  | some crs => ([k], crs.maybeRewrite env request)

/-- One round of the walk. -/
def tracedVisit (keys : List Key) (h : Str) : Except Traced (List Key) :=
  match tracedFor env hr request (.super h) with
  | (found, .ok none) => .ok (keys ++ found)
  | (found, result) => .error (keys ++ found, result)

def walked : Except Traced (List Key) → Traced
  | .ok keys => (keys, .ok none)
  | .error traced => traced

def tracedForSuperHost (host : Str) : Traced :=
  if request.url.schemeIs kHttps then ([], .error .schemeIsHttps)
  else walked (SuffixWalk.walk '.' (tracedVisit env hr request) [] host)

def tracedByHost (host : Str) : Traced :=
  match tracedFor env hr request (.exact host) with
  | (found, .ok none) =>
    let (keys, result) := tracedForSuperHost env hr request host
    (found ++ keys, result)
  | traced => traced

end Lookups

variable {env : Externals} {hr : HttpsRewriter} {request : URLRequest}

theorem tracedFor_exact (host : Str) :
    (tracedFor env hr request (.exact host)).2 = rewriteFor env hr.exactHost request host := by
  unfold tracedFor rewriteFor
  rw [HttpsRewriter.lookup]
  cases hr.exactHost host <;> rfl

theorem tracedFor_super (host : Str) :
    (tracedFor env hr request (.super host)).2 = rewriteFor env hr.superHost request host := by
  unfold tracedFor rewriteFor
  rw [HttpsRewriter.lookup]
  cases hr.superHost host <;> rfl

theorem tracedForSuperHost_result (host : Str) :
    (tracedForSuperHost env hr request host).2 = maybeRewriteForSuperHost env hr host request := by
  unfold tracedForSuperHost maybeRewriteForSuperHost
  split
  · rfl
  rw [SuffixWalk.walk_eq_foldlM, SuffixWalk.search_eq_findSome?]
  generalize ([] : List Key) = keys
  induction SuffixWalk.suffixes '.' host generalizing keys with
  | nil => rfl
  | cons d ds ih =>
    rw [List.foldlM_cons, List.findSome?_cons, ← tracedFor_super, tracedVisit]
    rcases tracedFor env hr request (.super d) with ⟨found, e | none | r⟩
    · rfl
    · exact ih _
    · rfl

/-- The traced lookups are the lookups of `MaybeRewrite`. -/
theorem tracedByHost_result (host : Str) :
    (tracedByHost env hr request host).2 = rewriteByHost env hr host request := by
  unfold tracedByHost rewriteByHost
  rw [← tracedFor_exact]
  rcases tracedFor env hr request (.exact host) with ⟨found, e | none | r⟩
  · rfl
  · exact tracedForSuperHost_result host
  · rfl

theorem tracedFor_none {k : Key} (missing : hr.lookup k = none) :
    tracedFor env hr request k = ([], .ok none) := by
  unfold tracedFor
  rw [missing]

theorem tracedFor_keys (k : Key) :
    (tracedFor env hr request k).1 = if (hr.lookup k).isSome then [k] else [] := by
  unfold tracedFor
  cases hr.lookup k <;> rfl

/-- A round keeps the keys it has and adds at most its own. -/
theorem tracedVisit_keys (keys : List Key) (h : Str) :
    (walked (tracedVisit env hr request keys h)).1 =
      keys ++ (tracedFor env hr request (.super h)).1 := by
  unfold tracedVisit
  rcases tracedFor env hr request (.super h) with ⟨found, e | none | r⟩ <;> rfl

theorem mem_walked_cons {keys : List Key} {d : Str} {ds : List Str} {k : Key}
    (h : k ∈ (walked ((d :: ds).foldlM (tracedVisit env hr request) keys)).1) :
    k ∈ (walked (tracedVisit env hr request keys d)).1 ∨
      ∃ keys', tracedVisit env hr request keys d = .ok keys' ∧
        k ∈ (walked (ds.foldlM (tracedVisit env hr request) keys')).1 := by
  rw [List.foldlM_cons] at h
  cases visit : tracedVisit env hr request keys d with
  | error traced =>
    rw [visit] at h
    exact .inl h
  | ok keys' =>
    rw [visit] at h
    exact .inr ⟨keys', rfl, h⟩

theorem mem_walked {ds : List Str} {keys : List Key} {k : Key}
    (h : k ∈ (walked (ds.foldlM (tracedVisit env hr request) keys)).1) :
    k ∈ keys ∨ ∃ d ∈ ds, k = .super d := by
  induction ds generalizing keys with
  | nil => exact .inl h
  | cons d ds ih =>
    have round {k : Key} (here : k ∈ (walked (tracedVisit env hr request keys d)).1) :
        k ∈ keys ∨ k = .super d := by
      rw [tracedVisit_keys, tracedFor_keys] at here
      rcases List.mem_append.mp here with old | new
      · exact .inl old
      · split at new
        · exact .inr (List.mem_singleton.mp new)
        · cases new
    rcases mem_walked_cons h with here | ⟨keys', visit, later⟩
    · exact (round here).imp_right fun same => ⟨d, List.mem_cons_self, same⟩
    · rcases ih later with old | ⟨d', member, same⟩
      · have here : k ∈ (walked (tracedVisit env hr request keys d)).1 := by
          rw [visit]
          exact old
        exact (round here).imp_right fun same => ⟨d, List.mem_cons_self, same⟩
      · exact .inr ⟨d', List.mem_cons_of_mem d member, same⟩

theorem walked_keeps {ds : List Str} {keys : List Key} {k : Key} (h : k ∈ keys) :
    k ∈ (walked (ds.foldlM (tracedVisit env hr request) keys)).1 := by
  induction ds generalizing keys with
  | nil => exact h
  | cons d ds ih =>
    have here : k ∈ (walked (tracedVisit env hr request keys d)).1 := by
      rw [tracedVisit_keys]
      exact List.mem_append_left _ h
    rw [List.foldlM_cons]
    cases visit : tracedVisit env hr request keys d with
    | error traced =>
      rw [visit] at here
      exact here
    | ok keys' =>
      rw [visit] at here
      exact ih here

theorem traced_mem_keysFor {host : Str} {k : Key} (h : k ∈ (tracedByHost env hr request host).1) :
    k ∈ keysFor host := by
  have exact (here : k ∈ (tracedFor env hr request (.exact host)).1) : k ∈ keysFor host := by
    rw [tracedFor_keys] at here
    split at here
    · cases List.mem_singleton.mp here
      exact List.mem_cons_self
    · cases here
  have super (here : k ∈ (tracedForSuperHost env hr request host).1) : k ∈ keysFor host := by
    unfold tracedForSuperHost at here
    split at here
    · cases here
    · rw [SuffixWalk.walk_eq_foldlM] at here
      rcases mem_walked here with none | ⟨d, member, rfl⟩
      · cases none
      · exact List.mem_cons_of_mem _ (List.mem_map_of_mem member)
  unfold tracedByHost at h
  rcases traced : tracedFor env hr request (.exact host) with ⟨found, e | none | r⟩
  · rw [traced] at h exact
    exact exact h
  · rw [traced] at h exact
    rcases List.mem_append.mp h with here | there
    · exact exact here
    · exact super there
  · rw [traced] at h exact
    exact exact h

/-- Behind a label that no entry knows, the name below it is the first that is found. -/
theorem mem_traced_below {label d : Str} (http : request.url.scheme = kHttp)
    (plain : '.' ∉ label) (dotted : '.' ∈ d)
    (noExact : hr.lookup (.exact (label ++ '.' :: d)) = none)
    (noSuper : hr.lookup (.super (label ++ '.' :: d)) = none)
    (found : (hr.lookup (.super d)).isSome = true) :
    .super d ∈ (tracedByHost env hr request (label ++ '.' :: d)).1 := by
  have suffixes : SuffixWalk.suffixes '.' (label ++ '.' :: d) = (label ++ '.' :: d) :: d ::
      (SuffixWalk.rests '.' d).filter ('.' ∈ ·) := by
    rw [SuffixWalk.suffixes_cut plain, SuffixWalk.suffixes,
      List.filter_cons_of_pos (by simpa using dotted)]
  have first : tracedVisit env hr request [] (label ++ '.' :: d) = .ok [] := by
    rw [tracedVisit, tracedFor_none noSuper]
    rfl
  have second : .super d ∈ (walked (tracedVisit env hr request [] d)).1 := by
    rw [tracedVisit_keys, tracedFor_keys, if_pos found]
    exact List.mem_singleton.mpr rfl
  rw [tracedByHost, tracedFor_none noExact, tracedForSuperHost, Gurl.not_https_of_http http]
  simp only [Bool.false_eq_true, if_false, List.nil_append]
  rw [SuffixWalk.walk_eq_foldlM, suffixes, List.foldlM_cons, first]
  change Key.super d ∈ (walked ((d :: _).foldlM (tracedVisit env hr request) [])).1
  rw [List.foldlM_cons]
  cases visit : tracedVisit env hr request [] d with
  | error traced =>
    rw [visit] at second
    exact second
  | ok keys =>
    rw [visit] at second
    exact walked_keeps second

/-! Keeping to the hosts, and when the index does. -/

/-- The guards of `MaybeRewrite` let the request through to the lookups. -/
def ReachesLookups (settings : Settings.HttpsRewrite) (request : URLRequest) : Prop :=
  settings.enabled = true ∧ request.url.scheme = kHttp ∧ request.url.spec ∉ request.prevRewrites

/-- The call consults the rule set: it is the one filed under a key where the lookups
call one. -/
def Consults (env : Externals) (rl : RuleList) (hr : HttpsRewriter)
    (settings : Settings.HttpsRewrite) (request : URLRequest) (rs : RuleSet) : Prop :=
  ReachesLookups settings request ∧
    ∃ k ∈ (tracedByHost env hr request (lowerHost request.url)).1, lastNaming rl.ruleSet k = some rs

/-- An entry of the set is the host, or is `*.` and a name that the host is or is below. -/
def RuleSet.IsFor (rs : RuleSet) (host : Str) : Prop :=
  ∃ entry ∈ rs.host, entry = host ∨ ∃ d, entry = '*' :: '.' :: d ∧ Under '.' d host

/-- The rules load, and no rule set is consulted outside its hosts. -/
def KeepsToHosts (env : Externals) (rl : RuleList) : Prop :=
  ∃ hr, updateRules env rl = .ok hr ∧ ∀ settings request rs,
    Consults env rl hr settings request rs → rs.IsFor (lowerHost request.url)

/-- No pattern is bad, no entry is the bare star, and a rule set that is filed under a
name with a dot has a `*.` entry for that name or for one that it is below. -/
structure FiledRight (env : Externals) (rl : RuleList) : Prop where
  compiles : ∀ rs ∈ rl.ruleSet, ∀ r ∈ rs.rule, env.re2Ok r.«from» = true
  noBareStar : ∀ rs ∈ rl.ruleSet, ['*'] ∉ rs.host
  dotted : ∀ d rs, '.' ∈ d → stringToLowerASCII d = d → lastNaming rl.ruleSet (.super d) = some rs →
    ∃ d', '*' :: '.' :: d' ∈ rs.host ∧ Under '.' d' d

variable {rl : RuleList}

theorem length_of_hostKey {entry host : Str}
    (h : hostKey entry = .exact host ∨ hostKey entry = .super host) :
    host.length ≤ entry.length := by
  unfold hostKey at h
  split at h
  · rcases h with impossible | same
    · cases impossible
    · cases same
      rw [List.length_drop]
      omega
  · rcases h with same | impossible
    · cases same
      exact Nat.le_refl _
    · cases impossible

theorem exists_longer (entries : List Str) : ∃ n, ∀ entry ∈ entries, entry.length < n := by
  induction entries with
  | nil => exact ⟨0, nofun⟩
  | cons entry entries ih =>
    obtain ⟨n, longer⟩ := ih
    refine ⟨n + entry.length + 1, fun e member => ?_⟩
    rcases List.mem_cons.mp member with rfl | later
    · omega
    · have := longer e later
      omega

theorem updateRules_loaded (built : updateRules env rl = .ok hr) :
    (∀ rs ∈ rl.ruleSet, ∀ r ∈ rs.rule, env.re2Ok r.«from» = true) ∧
      ∀ rs ∈ rl.ruleSet, ['*'] ∉ rs.host := by
  have added (rs : RuleSet) (member : rs ∈ rl.ruleSet) :
      (∀ r ∈ rs.rule, env.re2Ok r.«from» = true) ∧ ['*'] ∉ rs.host := by
    obtain ⟨s, s', step⟩ := Checked.foldlM_each built rs member
    obtain ⟨crs, compiles, rest⟩ := Checked.bind_eq_ok.mp step
    obtain ⟨rules, checked, _⟩ := Checked.bind_eq_ok.mp compiles
    refine ⟨Checked.mapM_each checked, fun bare => ?_⟩
    split at rest
    · cases rest
    · obtain ⟨t, t', filed⟩ := Checked.foldlM_each rest _ bare
      cases filed
  exact ⟨fun rs member => (added rs member).1, fun rs member => (added rs member).2⟩

theorem loads_of_filedRight (nonempty : ∀ rs ∈ rl.ruleSet, rs.rule ≠ [])
    (stars : ∀ rs ∈ rl.ruleSet, ∀ entry ∈ rs.host, '*' ∉ entry.tail) (right : FiledRight env rl) :
    ∃ hr, updateRules env rl = .ok hr := by
  apply updateRules_total right.compiles nonempty
  intro rs member entry named
  have rest := stars rs member entry named
  cases entry with
  | nil => exact .inl List.not_mem_nil
  | cons c cs =>
    by_cases star : c = '*'
    · right
      subst star
      have more : cs ≠ [] := by
        rintro rfl
        exact right.noBareStar rs member named
      exact ⟨rfl, Nat.succ_le_succ (List.length_pos_iff.mpr more)⟩
    · left
      rw [List.mem_cons, not_or]
      exact ⟨Ne.symm star, rest⟩

theorem isFor_of_consults (right : FiledRight env rl) {settings : Settings.HttpsRewrite}
    {rs : RuleSet} (consults : Consults env rl hr settings request rs) :
    rs.IsFor (lowerHost request.url) := by
  obtain ⟨_, k, traced, last⟩ := consults
  obtain ⟨_, entry, named, key⟩ := lastNaming_mem last
  rcases List.mem_cons.mp (traced_mem_keysFor traced) with rfl | super
  · refine ⟨entry, named, .inl ?_⟩
    unfold hostKey at key
    split at key
    · cases key
    · cases key
      rfl
  · obtain ⟨d, suffix, rfl⟩ := List.mem_map.mp super
    obtain ⟨dot, under⟩ := SuffixWalk.mem_suffixes.mp suffix
    have inside : d <:+ lowerHost request.url := by
      rcases under with same | below
      · exact same ▸ List.suffix_rfl
      · exact (List.suffix_cons '.' d).trans below
    obtain ⟨d', wildcard, above⟩ :=
      right.dotted d rs dot (lower_of_suffix (lower_lower _) inside) last
    exact ⟨_, wildcard, .inr ⟨d', rfl, SuffixWalk.under_trans above under⟩⟩

theorem lookup_of_longer (built : updateRules env rl = .ok hr) {host : Str}
    (longer : ∀ rs ∈ rl.ruleSet, ∀ entry ∈ rs.host, entry.length < host.length) {k : Key}
    (named : k = .exact host ∨ k = .super host) : hr.lookup k = none := by
  rw [index_lookup built]
  cases filed : lastNaming rl.ruleSet k with
  | none => rfl
  | some rs =>
    obtain ⟨member, entry, inside, key⟩ := lastNaming_mem filed
    have fits := length_of_hostKey (key ▸ named)
    have short := longer rs member entry inside
    exact absurd fits (Nat.not_le.mpr short)

/-- A request for `d` behind a label of `n` letters. -/
def deepRequest (n : Nat) (d : Str) : URLRequest where
  url := ⟨[], true, kHttp, List.replicate n 'x' ++ '.' :: d, []⟩
  firstPartyForCookies := ⟨[], true, kHttp, d, []⟩

theorem deepRequest_host (n : Nat) {d : Str} (lower : stringToLowerASCII d = d) :
    lowerHost (deepRequest n d).url = List.replicate n 'x' ++ '.' :: d := by
  have x : Char.toLower 'x' = 'x' := by decide
  have point : Char.toLower '.' = '.' := by decide
  unfold stringToLowerASCII at lower
  simp [deepRequest, lowerHost, stringToLowerASCII, lower, x, point]

/-- A rule set filed under `d` is consulted for a host below `d` that is longer than
every entry, so what makes it right there makes it right for `d`. -/
theorem dotted_of_keepsToHosts (built : updateRules env rl = .ok hr)
    (keeps : ∀ settings request rs, Consults env rl hr settings request rs →
      rs.IsFor (lowerHost request.url))
    {d : Str} {rs : RuleSet} (dot : '.' ∈ d) (lower : stringToLowerASCII d = d)
    (last : lastNaming rl.ruleSet (.super d) = some rs) :
    ∃ d', '*' :: '.' :: d' ∈ rs.host ∧ Under '.' d' d := by
  obtain ⟨n, longest⟩ := exists_longer (rl.ruleSet.flatMap (·.host))
  have longer : ∀ rs ∈ rl.ruleSet, ∀ entry ∈ rs.host,
      entry.length < (List.replicate n 'x' ++ '.' :: d).length := by
    intro rs member entry named
    have := longest entry (List.mem_flatMap.mpr ⟨rs, member, named⟩)
    simp only [List.length_append, List.length_replicate]
    omega
  have plain : '.' ∉ List.replicate n 'x' := fun h =>
    absurd (List.eq_of_mem_replicate h) (by decide)
  have found : (hr.lookup (.super d)).isSome = true := by
    rw [index_lookup built, last]
    rfl
  have host := deepRequest_host n lower
  have consults : Consults env rl hr ⟨true, false⟩ (deepRequest n d) rs := by
    refine ⟨⟨rfl, rfl, Finset.notMem_empty _⟩, .super d, ?_, last⟩
    rw [host]
    exact mem_traced_below rfl plain dot (lookup_of_longer built longer (.inl rfl))
      (lookup_of_longer built longer (.inr rfl)) found
  have isFor := keeps _ _ _ consults
  rw [host] at isFor
  obtain ⟨entry, named, here⟩ := isFor
  have short := longer rs (lastNaming_mem last).1 entry named
  rcases here with rfl | ⟨d', rfl, under⟩
  · exact absurd short (Nat.lt_irrefl _)
  · rcases (SuffixWalk.under_cut plain).mp under with same | above
    · rw [same] at short
      simp only [List.length_cons] at short
      omega
    · exact ⟨d', named, above⟩

/-- It is enough that every star has its dot. -/
theorem filedRight_of_dots (compiles : ∀ rs ∈ rl.ruleSet, ∀ r ∈ rs.rule, env.re2Ok r.«from» = true)
    (dots : ∀ rs ∈ rl.ruleSet, ∀ entry ∈ rs.host, entry.head? = some '*' →
      entry.take 2 = ['*', '.']) : FiledRight env rl := by
  constructor
  · exact compiles
  · intro rs member bare
    have := dots rs member _ bare rfl
    simp at this
  · intro d rs dot lower last
    obtain ⟨member, entry, named, key⟩ := lastNaming_mem last
    unfold hostKey at key
    split at key
    · next star =>
      have two := dots rs member entry named star
      cases key
      refine ⟨entry.drop 2, ?_, .inl rfl⟩
      have whole := List.take_append_drop 2 entry
      rw [two] at whole
      exact whole ▸ named
    · cases key

/-- Rule sets are consulted for their own hosts only, for every host, exactly when the
rules load and every name with a dot leads to a rule set with a `*.` entry for it. -/
theorem keeps_to_hosts_iff (env : Externals) (rl : RuleList)
    (nonempty : ∀ rs ∈ rl.ruleSet, rs.rule ≠ [])
    (stars : ∀ rs ∈ rl.ruleSet, ∀ entry ∈ rs.host, '*' ∉ entry.tail) :
    KeepsToHosts env rl ↔ FiledRight env rl := by
  constructor
  · rintro ⟨hr, built, keeps⟩
    obtain ⟨compiles, noBareStar⟩ := updateRules_loaded built
    exact ⟨compiles, noBareStar, fun d rs => dotted_of_keepsToHosts built keeps⟩
  · intro right
    obtain ⟨hr, built⟩ := loads_of_filedRight nonempty stars right
    exact ⟨hr, built, fun settings request rs => isFor_of_consults right⟩

/-- One rule set that makes http URLs https, under one entry. -/
def oneEntry (entry : Str) : RuleList := ⟨[⟨[entry], [⟨"http:".toList, "https:".toList⟩]⟩]⟩

theorem oneEntry_mem {entry : Str} {rs : RuleSet} (member : rs ∈ (oneEntry entry).ruleSet) :
    rs.rule ≠ [] ∧ rs.host = [entry] := by
  cases List.mem_singleton.mp member
  exact ⟨List.cons_ne_nil _ _, rfl⟩

theorem oneEntry_stars {entry : Str} (star : '*' ∉ entry.tail) :
    ∀ rs ∈ (oneEntry entry).ruleSet, ∀ e ∈ rs.host, '*' ∉ e.tail := by
  intro rs member e named
  rw [(oneEntry_mem member).2, List.mem_singleton] at named
  exact named ▸ star

theorem keeps_to_hosts_iff_wildcard : KeepsToHosts literal (oneEntry "*.a.com".toList) := by
  apply (keeps_to_hosts_iff literal (oneEntry "*.a.com".toList)
    (fun _ member => (oneEntry_mem member).1) (oneEntry_stars (by decide))).mpr
  apply filedRight_of_dots
  · exact fun _ _ _ _ => rfl
  · intro rs member entry named _
    rw [(oneEntry_mem member).2, List.mem_singleton] at named
    exact named ▸ rfl

/-- An entry whose star has no dot is filed under the name of another site, and the
bare star ends the process. -/
theorem star_without_dot_misfiled :
    updateRules literal (oneEntry "*".toList) = .error .outOfRange ∧
      ¬ ∀ env rl, (∀ rs ∈ rl.ruleSet, rs.rule ≠ []) →
        (∀ rs ∈ rl.ruleSet, ∀ entry ∈ rs.host, '*' ∉ entry.tail) → KeepsToHosts env rl := by
  refine ⟨rfl, fun always => ?_⟩
  obtain ⟨hr, built, keeps⟩ := always literal (oneEntry "*xa.com".toList)
    (fun _ member => (oneEntry_mem member).1) (oneEntry_stars (by decide))
  have filed : lastNaming (oneEntry "*xa.com".toList).ruleSet (.super "a.com".toList) =
      some ⟨["*xa.com".toList], [⟨"http:".toList, "https:".toList⟩]⟩ := by decide
  obtain ⟨d', wildcard, _⟩ := dotted_of_keepsToHosts built keeps (by decide) (by decide) filed
  simp at wildcard

end Seaturtle.Https
