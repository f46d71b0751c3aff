import Seaturtle.Block.StyleSheets

namespace Seaturtle.RenderBlocker
open SuffixWalk (Under)

/-! The style sheets against the rules: the selectors for every page in groups, and
those for a host joined in one. -/

variable {WebString : Type} (fromUTF8 : Str → WebString)

/-! The global selectors. -/

def withSelector (rules : List Blocking.Rule) : List Blocking.Rule :=
  rules.filter fun rule => !rule.selector.isEmpty

def globalSelectors (rules : List Blocking.Rule) : List Str :=
  ((withSelector rules).filter (·.domain.isEmpty)).map (·.selector)

def sheet (selectors : List Str) : WebString :=
  fromUTF8 ([','].intercalate selectors ++ kDisplayNone)

variable {fromUTF8}

theorem selector_of_withSelector {rules : List Blocking.Rule} {rule : Blocking.Rule}
    (h : rule ∈ withSelector rules) : rule.selector ≠ [] := by
  simpa using (List.mem_filter.mp h).2

theorem globalSelectors_solid {rules : List Blocking.Rule} {selector : Str}
    (h : selector ∈ globalSelectors rules) : selector ≠ [] := by
  obtain ⟨rule, member, rfl⟩ := List.mem_map.mp h
  exact selector_of_withSelector (List.mem_filter.mp member).1

theorem foldl_addRule_globals (rules : List Blocking.Rule)
    (s : GlobalSheets WebString × HashMap Str Str) :
    (rules.foldl (addRule fromUTF8) s).1 =
      (globalSelectors rules).foldl (addGlobalSelector fromUTF8) s.1 := by
  induction rules generalizing s with
  | nil => rfl
  | cons rule rules ih =>
    rw [List.foldl_cons, ih]
    by_cases skipped : rule.selector.isEmpty = true
    · simp [globalSelectors, withSelector, addRule, skipped]
    · by_cases global : rule.domain.isEmpty = true
      · simp [globalSelectors, withSelector, addRule, skipped, global]
      · simp [globalSelectors, withSelector, addRule, skipped, global]

/-- The loop has made its full groups into style sheets and holds the open one. -/
structure Cut (fromUTF8 : Str → WebString) (g : GlobalSheets WebString)
    (groups : List (List Str)) (part : List Str) : Prop where
  full : ∀ group ∈ groups, group.length = kMaxSelectorsPerStylesheet
  open_ : part.length < kMaxSelectorsPerStylesheet
  sheets : g.globalStylesheets = groups.map (sheet fromUTF8)
  stylesheet : g.stylesheet = [','].intercalate part
  count : g.numGlobalSelectors = kMaxSelectorsPerStylesheet * groups.length + part.length

/-- The counter is never reset; it tells a full group because all groups but the open
one are full. -/
theorem count_mod {g : GlobalSheets WebString} {groups : List (List Str)} {part : List Str}
    (h : Cut fromUTF8 g groups part) :
    (g.numGlobalSelectors + 1) % kMaxSelectorsPerStylesheet = 0 ↔
      part.length + 1 = kMaxSelectorsPerStylesheet := by
  have bound := h.open_
  rw [h.count]
  unfold kMaxSelectorsPerStylesheet at *
  omega

theorem addGlobalSelector_cut {g : GlobalSheets WebString} {groups : List (List Str)}
    {part : List Str} (h : Cut fromUTF8 g groups part) (solid : ∀ s ∈ part, s ≠ [])
    (selector : Str) :
    Cut fromUTF8 (addGlobalSelector fromUTF8 g selector) (groups ++ [part ++ [selector]]) [] ∨
      Cut fromUTF8 (addGlobalSelector fromUTF8 g selector) groups (part ++ [selector]) := by
  have joined : Joins.add [','] g.stylesheet selector = [','].intercalate (part ++ [selector]) := by
    rw [h.stylesheet, Joins.add_piece solid]
  have size : (part ++ [selector]).length = part.length + 1 := List.length_append
  by_cases complete : part.length + 1 = kMaxSelectorsPerStylesheet
  · left
    simp only [addGlobalSelector, if_pos ((count_mod h).mpr complete), joined]
    constructor
    · intro group member
      rcases List.mem_append.mp member with old | new
      · exact h.full group old
      · rw [List.mem_singleton.mp new, size, complete]
    · decide
    · simp [h.sheets, sheet]
    · rfl
    · have count := h.count
      simp only [List.length_append, List.length_cons, List.length_nil, Nat.mul_add]
      omega
  · right
    simp only [addGlobalSelector, if_neg (mt (count_mod h).mp complete), joined]
    constructor
    · exact h.full
    · have bound := h.open_
      omega
    · exact h.sheets
    · rfl
    · have count := h.count
      dsimp only
      omega

theorem foldl_addGlobalSelector_cut (fromUTF8 : Str → WebString) {selectors : List Str}
    (solid : ∀ s ∈ selectors, s ≠ []) :
    ∃ groups part, selectors = groups.flatten ++ part ∧
      Cut fromUTF8 (selectors.foldl (addGlobalSelector fromUTF8) {}) groups part := by
  apply Joins.loop_invariant (fun g passed => (∀ s ∈ passed, s ≠ []) →
    ∃ groups part, passed = groups.flatten ++ part ∧ Cut fromUTF8 g groups part)
  · exact fun _ => ⟨[], [], rfl, nofun, by decide, rfl, rfl, rfl⟩
  · intro g passed selector ih nonempty
    obtain ⟨groups, part, rfl, cut⟩ := ih fun s member => nonempty s (List.mem_append_left _ member)
    have inside : ∀ s ∈ part, s ≠ [] := fun s member =>
      nonempty s (List.mem_append_left _ (List.mem_append_right _ member))
    rcases addGlobalSelector_cut cut inside selector with full | open_
    · exact ⟨_, _, by simp, full⟩
    · exact ⟨_, _, by simp, open_⟩
  · exact solid

theorem flush_cut {g : GlobalSheets WebString} {groups : List (List Str)} {part : List Str}
    (h : Cut fromUTF8 g groups part) (solid : ∀ s ∈ part, s ≠ []) :
    flush fromUTF8 g =
      (if part = [] then groups else groups ++ [part]).map (sheet fromUTF8) := by
  have open_ : g.stylesheet.isEmpty = true ↔ part = [] := by
    rw [List.isEmpty_iff, h.stylesheet, Joins.intercalate_eq_nil solid]
  unfold flush
  by_cases none : part = []
  · rw [if_pos (open_.mpr none), if_pos none, h.sheets]
  · rw [if_neg (mt open_.mp none), if_neg none, h.sheets, h.stylesheet, List.map_append]
    rfl

theorem globalStylesheets_eq (b : RenderBlocker WebString) (rl : Blocking.RuleList) :
    (b.updateRulesForRenderProcess fromUTF8 rl).globalStylesheets =
      flush fromUTF8 ((globalSelectors rl.rule).foldl (addGlobalSelector fromUTF8) {}) := by
  simp only [updateRulesForRenderProcess, foldl_addRule_globals]

theorem globalStylesheets_grouped (fromUTF8 : Str → WebString) (b : RenderBlocker WebString)
    (rl : Blocking.RuleList) :
    ∃ groups, Joins.Grouped kMaxSelectorsPerStylesheet (globalSelectors rl.rule) groups ∧
      (b.updateRulesForRenderProcess fromUTF8 rl).globalStylesheets =
        groups.map (sheet fromUTF8) := by
  have solid : ∀ s ∈ globalSelectors rl.rule, s ≠ [] := fun _ => globalSelectors_solid
  obtain ⟨groups, part, whole, cut⟩ := foldl_addGlobalSelector_cut fromUTF8 solid
  rw [whole] at solid
  refine ⟨if part = [] then groups else groups ++ [part], ?_, ?_⟩
  · rw [whole]
    exact Joins.grouped_of_full cut.full cut.open_
  · rw [globalStylesheets_eq,
      flush_cut cut fun s member => solid s (List.mem_append_right _ member)]

/-- The style sheets are the groups of the global selectors, whatever stands between them. -/
theorem global_selectors_partitioned (b : RenderBlocker WebString) (rl : Blocking.RuleList) :
    (∃ groups, Joins.Grouped kMaxSelectorsPerStylesheet (globalSelectors rl.rule) groups ∧
      (b.updateRulesForRenderProcess fromUTF8 rl).globalStylesheets =
        groups.map (sheet fromUTF8)) ∧
    ((b.updateRulesForRenderProcess fromUTF8 rl).globalStylesheets = [] ↔
      globalSelectors rl.rule = []) ∧
    ∀ (b' : RenderBlocker WebString) (rl' : Blocking.RuleList),
      globalSelectors rl'.rule = globalSelectors rl.rule →
        (b'.updateRulesForRenderProcess fromUTF8 rl').globalStylesheets =
          (b.updateRulesForRenderProcess fromUTF8 rl).globalStylesheets := by
  constructor
  · exact globalStylesheets_grouped fromUTF8 b rl
  constructor
  · obtain ⟨groups, grouped, sheets⟩ := globalStylesheets_grouped fromUTF8 b rl
    rw [sheets, List.map_eq_nil_iff, Joins.grouped_eq_nil grouped]
  · intro b' rl' same
    rw [globalStylesheets_eq, globalStylesheets_eq, same]

/-! The selectors with a domain. -/

def rulesOf (rules : List Blocking.Rule) (domain : Str) : List Blocking.Rule :=
  (withSelector rules).filter (·.domain = domain)

theorem rulesOf_concat (rules : List Blocking.Rule) (rule : Blocking.Rule) (domain : Str) :
    rulesOf (rules ++ [rule]) domain = rulesOf rules domain ++
      if rule.selector.isEmpty = false ∧ rule.domain = domain then [rule] else [] := by
  by_cases skipped : rule.selector.isEmpty = true
  · simp [rulesOf, withSelector, skipped]
  · by_cases here : rule.domain = domain
    · simp [rulesOf, withSelector, skipped, here]
    · simp [rulesOf, withSelector, skipped, here]

/-- What the first loop leaves for a domain: the selectors of its rules, joined. -/
def Joined (sheets : HashMap Str Str) (rules : List Blocking.Rule) : Prop :=
  ∀ domain, domain ≠ [] → sheets domain =
    if rulesOf rules domain = [] then none
    else some ([','].intercalate ((rulesOf rules domain).map (·.selector)))

theorem addDomainSelector_apply (sheets : HashMap Str Str) (domain selector d : Str) :
    addDomainSelector sheets domain selector d =
      if d = domain then some ((sheets domain).elim selector (· ++ [','] ++ selector))
      else sheets d := by
  unfold addDomainSelector
  cases sheets domain with
  | none => rfl
  | some current => rfl

theorem addDomainSelector_joined {sheets : HashMap Str Str} {rules : List Blocking.Rule}
    (h : Joined sheets rules) {rule : Blocking.Rule} (selector : rule.selector.isEmpty = false) :
    Joined (addDomainSelector sheets rule.domain rule.selector) (rules ++ [rule]) := by
  intro domain named
  have before := h domain named
  rw [addDomainSelector_apply, rulesOf_concat]
  by_cases here : rule.domain = domain
  · subst here
    have mine : rule.selector.isEmpty = false ∧ rule.domain = rule.domain := ⟨selector, rfl⟩
    rw [if_pos rfl, if_pos mine, before]
    by_cases first : rulesOf rules rule.domain = []
    · simp [first]
    · have some_ : (rulesOf rules rule.domain).map (·.selector) ≠ [] := by simpa using first
      simp [first, Joins.intercalate_concat some_]
  · have other : ¬ (rule.selector.isEmpty = false ∧ rule.domain = domain) := fun h => here h.2
    rw [if_neg (Ne.symm here), if_neg other, List.append_nil, before]

theorem addRule_joined {s : GlobalSheets WebString × HashMap Str Str} {rules : List Blocking.Rule}
    (h : Joined s.2 rules) (rule : Blocking.Rule) :
    Joined (addRule fromUTF8 s rule).2 (rules ++ [rule]) := by
  have unmoved (domain : Str) (other : ¬ (rule.selector.isEmpty = false ∧ rule.domain = domain)) :
      rulesOf (rules ++ [rule]) domain = rulesOf rules domain := by
    rw [rulesOf_concat, if_neg other, List.append_nil]
  unfold addRule
  split
  · next skipped =>
    intro domain named
    rw [unmoved domain (by simp [skipped])]
    exact h domain named
  · next selector =>
    split
    · next global =>
      intro domain named
      have other : rule.domain ≠ domain := by
        rw [List.isEmpty_iff.mp global]
        exact named.symm
      rw [unmoved domain fun both => other both.2]
      exact h domain named
    · exact addDomainSelector_joined h (by simpa using selector)

theorem domainStylesheets_joined (b : RenderBlocker WebString) (rl : Blocking.RuleList) :
    Joined (b.updateRulesForRenderProcess fromUTF8 rl).domainStylesheets rl.rule := by
  have start : Joined .empty [] := fun domain _ => rfl
  exact Joins.loop_invariant
    (fun (s : GlobalSheets WebString × HashMap Str Str) passed => Joined s.2 passed)
    start (fun _ _ rule h => addRule_joined h rule) rl.rule

/-- The rule has a selector for the host: its domain has a dot, and is the host or
what the host ends with after a dot. -/
def HidesOn (host : Str) (rule : Blocking.Rule) : Prop :=
  rule.selector ≠ [] ∧ rule.domain ≠ [] ∧ '.' ∈ rule.domain ∧ Under '.' rule.domain host

instance (host : Str) (rule : Blocking.Rule) : Decidable (HidesOn host rule) :=
  inferInstanceAs (Decidable (_ ∧ _))

/-- The rules for a host, the longest domain first and those of one domain in order:
`insertionSort` is stable. -/
def domainRules (rl : Blocking.RuleList) (host : Str) : List Blocking.Rule :=
  (rl.rule.filter (HidesOn host)).insertionSort fun a b => b.domain.length ≤ a.domain.length

theorem gather_suffixes (rl : Blocking.RuleList) (host : Str) :
    Joins.gather (·.domain) (SuffixWalk.suffixes '.' host) (withSelector rl.rule) =
      domainRules rl host := by
  rw [Joins.gather_eq_insertionSort _ (SuffixWalk.suffixes_decreasing '.' host), domainRules,
    withSelector, List.filter_filter]
  apply congrArg
  apply List.filter_congr
  intro rule _
  rw [Bool.eq_iff_iff]
  have named : '.' ∈ rule.domain → rule.domain ≠ [] := List.ne_nil_of_mem
  simp only [Bool.and_eq_true, decide_eq_true_iff, SuffixWalk.mem_suffixes, Bool.not_eq_true',
    List.isEmpty_eq_false_iff]
  constructor
  · rintro ⟨⟨dot, under⟩, selector⟩
    exact ⟨selector, named dot, dot, under⟩
  · rintro ⟨selector, _, dot, under⟩
    exact ⟨⟨dot, under⟩, selector⟩

theorem foldl_appendDomain (b : RenderBlocker WebString) (rl : Blocking.RuleList)
    {domains : List Str} (named : ∀ d ∈ domains, d ≠ []) :
    domains.foldl (b.updateRulesForRenderProcess fromUTF8 rl).appendDomain [] = [','].intercalate
      ((Joins.gather (·.domain) domains (withSelector rl.rule)).map (·.selector)) := by
  apply Joins.loop_invariant (fun stylesheet passed => (∀ d ∈ passed, d ≠ []) → stylesheet =
    [','].intercalate ((Joins.gather (·.domain) passed (withSelector rl.rule)).map (·.selector)))
  · exact fun _ => rfl
  · intro stylesheet passed d ih nonempty
    have before := ih fun e member => nonempty e (List.mem_append_left _ member)
    have here := nonempty d (List.mem_append_right _ (List.mem_singleton.mpr rfl))
    have solid : ∀ s ∈ (Joins.gather (·.domain) passed (withSelector rl.rule)).map (·.selector),
        s ≠ [] := by
      intro s member
      obtain ⟨rule, inside, rfl⟩ := List.mem_map.mp member
      exact selector_of_withSelector (Joins.mem_of_mem_gather inside)
    rw [appendDomain, domainStylesheets_joined b rl d here, before, Joins.gather_concat,
      List.map_append]
    by_cases none : rulesOf rl.rule d = []
    · rw [if_pos none, show (withSelector rl.rule).filter (·.domain = d) = [] from none]
      simp
    · rw [if_neg none]
      exact Joins.add_intercalate solid (List.map_eq_nil_iff.not.mpr none)
  · exact named

theorem injectStyleSheets_eq (b : RenderBlocker WebString) (doc : WebDocument WebString) :
    (b.injectStyleSheets fromUTF8 doc).styleSheets = doc.styleSheets ++ b.globalStylesheets ++
      let stylesheet := SuffixWalk.fold '.' b.appendDomain [] (lowerHost doc.url)
      if stylesheet.isEmpty then [] else [fromUTF8 (stylesheet ++ kDisplayNone)] := by
  have globals (sheets : List WebString) : ∀ doc : WebDocument WebString,
      sheets.foldl WebDocument.insertStyleSheet doc =
        { doc with styleSheets := doc.styleSheets ++ sheets } := by
    induction sheets with
    | nil => simp
    | cons s sheets ih => simp [ih, WebDocument.insertStyleSheet]
  simp only [injectStyleSheets, globals]
  split
  · rw [List.append_nil]
  · rfl

/-- After the global style sheets one more exactly where some rule has a selector for
the host, with the selectors of all such rules. -/
theorem domain_selectors_injected_exactly (b : RenderBlocker WebString) (rl : Blocking.RuleList)
    (doc : WebDocument WebString) :
    ((b.updateRulesForRenderProcess fromUTF8 rl).injectStyleSheets fromUTF8 doc).styleSheets =
      doc.styleSheets ++ (b.updateRulesForRenderProcess fromUTF8 rl).globalStylesheets ++
        if ∃ rule ∈ rl.rule, HidesOn (lowerHost doc.url) rule
        then [sheet fromUTF8 ((domainRules rl (lowerHost doc.url)).map (·.selector))]
        else [] := by
  have named : ∀ d ∈ SuffixWalk.suffixes '.' (lowerHost doc.url), d ≠ [] := by
    intro d member
    exact List.ne_nil_of_mem (SuffixWalk.mem_suffixes.mp member).1
  have solid : ∀ s ∈ (domainRules rl (lowerHost doc.url)).map (·.selector), s ≠ [] := by
    intro s member
    obtain ⟨rule, inside, rfl⟩ := List.mem_map.mp member
    rw [domainRules, List.mem_insertionSort, List.mem_filter] at inside
    exact (of_decide_eq_true inside.2).1
  have empty : domainRules rl (lowerHost doc.url) = [] ↔
      ¬ ∃ rule ∈ rl.rule, HidesOn (lowerHost doc.url) rule := by
    rw [List.eq_nil_iff_forall_not_mem]
    simp [domainRules]
  rw [injectStyleSheets_eq, SuffixWalk.fold_eq_foldl, foldl_appendDomain b rl named,
    gather_suffixes]
  apply congrArg
  have flag : ([','].intercalate ((domainRules rl (lowerHost doc.url)).map (·.selector))).isEmpty =
      true ↔ ¬ ∃ rule ∈ rl.rule, HidesOn (lowerHost doc.url) rule := by
    rw [List.isEmpty_iff, Joins.intercalate_eq_nil solid, List.map_eq_nil_iff, empty]
  by_cases hides : ∃ rule ∈ rl.rule, HidesOn (lowerHost doc.url) rule
  · simp only [if_pos hides, if_neg fun none => flag.mp none hides]
    rfl
  · simp only [if_neg hides, if_pos (flag.mpr hides)]

example : ((({} : RenderBlocker Str).updateRulesForRenderProcess id
    ⟨[⟨"a.com".toList, false, ".x".toList⟩, ⟨[], false, ".g".toList⟩,
      ⟨"b.a.com".toList, false, ".y".toList⟩]⟩).injectStyleSheets id
    ⟨Gurl.parseCanonical "http://B.a.com/".toList, []⟩).styleSheets =
      [".g {display:none !important;}".toList, ".y,.x {display:none !important;}".toList] := by
  decide +kernel

end Seaturtle.RenderBlocker
