import Mathlib.Data.List.Basic

/-! Runs of guarded step functions. A step is `none` where the event is not
enabled. Nothing here depends on what the states and the events are. -/
namespace Runs

universe u v
variable {σ : Type u} {ε : Type v}

def run (step : σ → ε → Option σ) (s : σ) : List ε → Option σ
  | [] => some s
  | e :: es => (step s e).bind fun s' => run step s' es

/-- `C` holds of every step taken: the state before, the event, the state after. -/
def Along (step : σ → ε → Option σ) (C : σ → ε → σ → Prop) (s : σ) : List ε → Prop
  | [] => True
  | e :: es => ∀ s', step s e = some s' → C s e s' ∧ Along step C s' es

instance decidableAlong (step : σ → ε → Option σ) (C : σ → ε → σ → Prop)
    [∀ s e s', Decidable (C s e s')] (s : σ) : (es : List ε) → Decidable (Along step C s es)
  | [] => .isTrue trivial
  | e :: es =>
    match taken : step s e with
    | none => .isTrue fun s' hs => by rw [taken] at hs; cases hs
    | some s' =>
      have := decidableAlong step C s' es
      decidable_of_iff (C s e s' ∧ Along step C s' es) (by simp [Along, taken])

/-- `P` holds of every state the run passes through, the first and the last included. -/
def Always (step : σ → ε → Option σ) (P : σ → Prop) (s : σ) : List ε → Prop
  | [] => P s
  | e :: es => P s ∧ ∀ s', step s e = some s' → Always step P s' es

instance decidableAlways (step : σ → ε → Option σ) (P : σ → Prop) [DecidablePred P] (s : σ) :
    (es : List ε) → Decidable (Always step P s es)
  | [] => inferInstanceAs (Decidable (P s))
  | e :: es =>
    match taken : step s e with
    | none => decidable_of_iff (P s) (by simp [Always, taken])
    | some s' =>
      have := decidableAlways step P s' es
      decidable_of_iff (P s ∧ Always step P s' es) (by simp [Always, taken])

variable {step : σ → ε → Option σ} {C Q : σ → ε → σ → Prop} {I P : σ → Prop}

@[simp] theorem run_nil (s : σ) : run step s [] = some s := rfl

@[simp] theorem run_cons (s : σ) (e : ε) (es : List ε) :
    run step s (e :: es) = (step s e).bind fun s' => run step s' es := rfl

theorem run_append (s : σ) (es fs : List ε) :
    run step s (es ++ fs) = (run step s es).bind fun s' => run step s' fs := by
  induction es generalizing s with
  | nil => rfl
  | cons e es ih =>
    rw [List.cons_append, run_cons, run_cons, Option.bind_assoc]
    exact Option.bind_congr fun s' _ => ih s'

theorem along_of_events {p : ε → Prop} (s : σ) (es : List ε) (h : ∀ e ∈ es, p e) :
    Along step (fun _ e _ => p e) s es := by
  induction es generalizing s with
  | nil => trivial
  | cons e es ih =>
    intro s' _
    exact ⟨h e List.mem_cons_self, ih s' fun f hf => h f (List.mem_cons_of_mem e hf)⟩

theorem invariant_along {s t : σ} {es : List ε} (start : I s)
    (keep : ∀ s e s', I s → step s e = some s' → C s e s' → I s')
    (along : Along step C s es) (reached : run step s es = some t) : I t := by
  induction es generalizing s with
  | nil => cases Option.some.inj reached; exact start
  | cons e es ih =>
    simp only [run_cons, Option.bind_eq_some_iff] at reached
    obtain ⟨s', hs, ht⟩ := reached
    have h := along s' hs
    exact ih (keep s e s' start hs h.1) h.2 ht

theorem invariant {s t : σ} {es : List ε} (start : I s)
    (keep : ∀ s e s', I s → step s e = some s' → I s')
    (reached : run step s es = some t) : I t := by
  have along : Along step (fun _ _ _ => True) s es := along_of_events s es fun _ _ => trivial
  exact invariant_along start (fun s e s' hi hs _ => keep s e s' hi hs) along reached

/-! Histories. -/

/-- Some event has come after a past such as `P` asks for. -/
def Happened (P : List ε → ε → Prop) (es : List ε) : Prop :=
  ∃ before e after, es = before ++ e :: after ∧ P before e

/-- Every event has come after a past such as `P` asks for. -/
def Throughout (P : List ε → ε → Prop) (es : List ε) : Prop :=
  ∀ before e after, es = before ++ e :: after → P before e

theorem concat_split {past before after : List ε} {e x : ε} :
    past ++ [e] = before ++ x :: after ↔
      (after = [] ∧ past = before ∧ e = x) ∨
        ∃ rest, after = rest ++ [e] ∧ past = before ++ x :: rest := by
  rcases List.eq_nil_or_concat after with rfl | ⟨rest, last, rfl⟩
  · simp
  · constructor
    · intro same
      rw [List.concat_eq_append, ← List.cons_append, ← List.append_assoc] at same
      obtain ⟨init, final⟩ := List.append_inj' same rfl
      cases final
      exact .inr ⟨rest, List.concat_eq_append, init⟩
    · rintro (⟨none, _⟩ | ⟨rest', same, rfl⟩)
      · simp at none
      · rw [same]
        simp

theorem happened_nil {P : List ε → ε → Prop} : ¬ Happened P [] := by
  rintro ⟨before, e, after, same, _⟩
  simp at same

theorem happened_concat {P : List ε → ε → Prop} {past : List ε} {e : ε} :
    Happened P (past ++ [e]) ↔ Happened P past ∨ P past e := by
  constructor
  · rintro ⟨before, x, after, split, holds⟩
    rcases concat_split.mp split with ⟨_, rfl, rfl⟩ | ⟨rest, _, earlier⟩
    · exact .inr holds
    · exact .inl ⟨before, x, rest, earlier, holds⟩
  · rintro (⟨before, x, after, rfl, holds⟩ | holds)
    · exact ⟨before, x, after ++ [e], by simp, holds⟩
    · exact ⟨past, e, [], rfl, holds⟩

theorem throughout_nil {P : List ε → ε → Prop} : Throughout P [] := by
  intro before e after same
  simp at same

theorem throughout_concat {P : List ε → ε → Prop} {past : List ε} {e : ε} :
    Throughout P (past ++ [e]) ↔ Throughout P past ∧ P past e := by
  constructor
  · intro all
    refine ⟨fun before x after split => ?_, all past e [] rfl⟩
    exact all before x (after ++ [e]) (by simp [split])
  · rintro ⟨earlier, holds⟩ before x after split
    rcases concat_split.mp split with ⟨_, rfl, rfl⟩ | ⟨rest, _, same⟩
    · exact holds
    · exact earlier before x rest same

/-- An invariant that speaks of the events so far. -/
theorem invariant_history {I : List ε → σ → Prop} {s t : σ} {es : List ε} (past : List ε)
    (start : I past s)
    (keep : ∀ past s e s', I past s → step s e = some s' → I (past ++ [e]) s')
    (reached : run step s es = some t) : I (past ++ es) t := by
  induction es generalizing past s with
  | nil =>
    cases Option.some.inj reached
    rwa [List.append_nil]
  | cons e es ih =>
    simp only [run_cons, Option.bind_eq_some_iff] at reached
    obtain ⟨s', hs, ht⟩ := reached
    have later := ih (past ++ [e]) (keep past s e s' start hs) ht
    rwa [List.append_assoc] at later

section
universe x y z w'
variable {ν : Type x}

/-- What `note` makes of the steps of a run, in order. -/
def chronicle (step : σ → ε → Option σ) (note : σ → ε → Option ν) (s : σ) : List ε → List ν
  | [] => []
  | e :: es =>
    (note s e).toList ++ ((step s e).map fun s' => chronicle step note s' es).getD []

/-- An invariant that speaks of what has been noted so far. -/
theorem invariant_chronicle {note : σ → ε → Option ν} {I : List ν → σ → Prop} {s t : σ}
    {es : List ε} (past : List ν) (start : I past s)
    (keep : ∀ past s e s', I past s → step s e = some s' → I (past ++ (note s e).toList) s')
    (reached : run step s es = some t) : I (past ++ chronicle step note s es) t := by
  induction es generalizing past s with
  | nil =>
    cases Option.some.inj reached
    rwa [chronicle, List.append_nil]
  | cons e es ih =>
    simp only [run_cons, Option.bind_eq_some_iff] at reached
    obtain ⟨s', hs, ht⟩ := reached
    have later := ih (past ++ (note s e).toList) (keep past s e s' start hs) ht
    rw [chronicle, hs, Option.map_some, Option.getD_some]
    rwa [List.append_assoc] at later

/-- A run whose steps are also steps of `step'` is a run of `step'`, and the same is noted. -/
theorem chronicle_along {step' : σ → ε → Option σ} {note : σ → ε → Option ν} {s t : σ}
    {es : List ε} (same : ∀ s e s', C s e s' → step s e = some s' → step' s e = some s')
    (along : Along step C s es) (reached : run step s es = some t) :
    run step' s es = some t ∧ chronicle step' note s es = chronicle step note s es := by
  induction es generalizing s with
  | nil => exact ⟨reached, rfl⟩
  | cons e es ih =>
    simp only [run_cons, Option.bind_eq_some_iff] at reached
    obtain ⟨s', hs, ht⟩ := reached
    have h := along s' hs
    have hs' := same s e s' h.1 hs
    obtain ⟨later, noted⟩ := ih h.2 ht
    constructor
    · rw [run_cons, hs']
      exact later
    · rw [chronicle, chronicle, hs, hs', Option.map_some, Option.map_some, Option.getD_some,
        Option.getD_some, noted]

variable {κ : Type w'} {τ : Type y} {δ : Type z} [DecidableEq κ]

/-- The events of one component, among events that are marked with their components. -/
def eventsOf (k : κ) (marked : List (κ × δ)) : List δ :=
  marked.filterMap fun x => if x.1 = k then some x.2 else none

theorem eventsOf_here (k : κ) (marked : List (κ × δ)) (d : δ) :
    eventsOf k (marked ++ [(k, d)]) = eventsOf k marked ++ [d] := by
  simp [eventsOf]

theorem eventsOf_elsewhere {k l : κ} (marked : List (κ × δ)) (d : δ) (other : l ≠ k) :
    eventsOf k (marked ++ [(l, d)]) = eventsOf k marked := by
  simp [eventsOf, other]

theorem eventsOf_append (k : κ) (marked more : List (κ × δ)) :
    eventsOf k (marked ++ more) = eventsOf k marked ++ eventsOf k more := List.filterMap_append

/-- A step of one component, of which it is noted, and a step of none, of which nothing is. -/
def OwnStep (step' : τ → δ → Option τ) (view : σ → κ → τ) (s : σ) (noted : Option (κ × δ))
    (s' : σ) : Prop :=
  match noted with
  | none => ∀ k, view s' k = view s k
  | some (k, d) => step' (view s k) d = some (view s' k) ∧ ∀ l, l ≠ k → view s' l = view s l

/-- Where each step is a step of one component at most, every component runs by its own events. -/
theorem ownStep_run {step' : τ → δ → Option τ} {view : σ → κ → τ} {s s' : σ} {init : κ → τ}
    {marked : List (κ × δ)} {noted : Option (κ × δ)} (own : OwnStep step' view s noted s')
    (runs : ∀ k, run step' (init k) (eventsOf k marked) = some (view s k)) (k : κ) :
    run step' (init k) (eventsOf k (marked ++ noted.toList)) = some (view s' k) := by
  cases noted with
  | none =>
    rw [Option.toList_none, List.append_nil, runs, own]
  | some x =>
    obtain ⟨l, d⟩ := x
    obtain ⟨taken, others⟩ := own
    by_cases here : l = k
    · subst here
      rw [Option.toList_some, eventsOf_here, run_append, runs]
      simp [taken]
    · rw [Option.toList_some, eventsOf_elsewhere marked d here, runs, others k (Ne.symm here)]

end

/-- Step conditions may be exchanged under an invariant that both maintain. -/
theorem along_iff (I : σ → Prop) {s : σ} (es : List ε) (start : I s)
    (keep : ∀ s e s', I s → step s e = some s' → C s e s' → I s')
    (same : ∀ s e s', I s → step s e = some s' → (Q s e s' ↔ C s e s')) :
    Along step Q s es ↔ Along step C s es := by
  induction es generalizing s with
  | nil => exact Iff.rfl
  | cons e es ih =>
    constructor
    · intro h s' hs
      have hc := (same s e s' start hs).mp (h s' hs).1
      exact ⟨hc, (ih (keep s e s' start hs hc)).mp (h s' hs).2⟩
    · intro h s' hs
      have hc := (h s' hs).1
      exact ⟨(same s e s' start hs).mpr hc, (ih (keep s e s' start hs hc)).mpr (h s' hs).2⟩

theorem always_first {s : σ} {es : List ε} (always : Always step P s es) : P s := by
  cases es with
  | nil => exact always
  | cons e es => exact always.1

theorem always_of_along_ahead (I : σ → List ε → Prop) {s : σ} {es : List ε} (start : I s es)
    (keep : ∀ s e es s', I s (e :: es) → step s e = some s' → C s e s' → I s' es)
    (good : ∀ s es, I s es → P s) (along : Along step C s es) : Always step P s es := by
  induction es generalizing s with
  | nil => exact good s [] start
  | cons e es ih =>
    refine ⟨good s (e :: es) start, fun s' hs => ?_⟩
    have h := along s' hs
    exact ih (keep s e es s' start hs h.1) h.2

theorem always_of_along (I : σ → Prop) {s : σ} (es : List ε) (start : I s)
    (keep : ∀ s e s', I s → step s e = some s' → C s e s' → I s')
    (good : ∀ s, I s → P s) (along : Along step C s es) : Always step P s es :=
  always_of_along_ahead (fun s _ => I s) start (fun s e _ s' => keep s e s')
    (fun s _ => good s) along

/-- `P` holds in every state reached exactly when every step meets `C`, where the
steps that meet `C` maintain `P` and the others leave it at once. The invariant may
speak of the events that are still to come. -/
theorem always_iff_along_ahead (I : σ → List ε → Prop) {s : σ} (es : List ε) (start : I s es)
    (keep : ∀ s e es s', I s (e :: es) → step s e = some s' → C s e s' → I s' es)
    (good : ∀ s es, I s es → P s)
    (leaves : ∀ s e es s', I s (e :: es) → step s e = some s' → P s' → C s e s') :
    Always step P s es ↔ Along step C s es := by
  refine ⟨fun always => ?_, always_of_along_ahead I start keep good⟩
  induction es generalizing s with
  | nil => trivial
  | cons e es ih =>
    intro s' hs
    have tail := always.2 s' hs
    have hc := leaves s e es s' start hs (always_first tail)
    exact ⟨hc, ih (keep s e es s' start hs hc) tail⟩

theorem always_iff_along (I : σ → Prop) {s : σ} (es : List ε) (start : I s)
    (keep : ∀ s e s', I s → step s e = some s' → C s e s' → I s')
    (good : ∀ s, I s → P s)
    (leaves : ∀ s e s', I s → step s e = some s' → P s' → C s e s') :
    Always step P s es ↔ Along step C s es :=
  always_iff_along_ahead (fun s _ => I s) es start (fun s e _ s' => keep s e s')
    (fun s _ => good s) (fun s e _ s' => leaves s e s')

theorem always_last {s t : σ} {es : List ε} (always : Always step P s es)
    (reached : run step s es = some t) : P t := by
  induction es generalizing s with
  | nil => cases Option.some.inj reached; exact always
  | cons e es ih =>
    simp only [run_cons, Option.bind_eq_some_iff] at reached
    obtain ⟨s', hs, ht⟩ := reached
    exact ih (always.2 s' hs) ht

theorem along_of_always {s : σ} {es : List ε} (always : Always step P s es) :
    Along step (fun s _ _ => P s) s es := by
  induction es generalizing s with
  | nil => trivial
  | cons e es ih =>
    intro s' hs
    exact ⟨always.1, ih (always.2 s' hs)⟩

/-- Each step of a run that is in `P` throughout is taken from `P` into `P`. -/
theorem along_within {s : σ} {es : List ε} (always : Always step P s es)
    (along : Along step C s es) : Along step (fun s e s' => P s ∧ C s e s' ∧ P s') s es := by
  induction es generalizing s with
  | nil => trivial
  | cons e es ih =>
    intro s' hs
    have h := along s' hs
    have tail := always.2 s' hs
    exact ⟨⟨always.1, h.1, always_first tail⟩, ih tail h.2⟩

/-- A step that fails `C` leaves a mark that no later step removes: a run that ends
without the mark has met `C` throughout. The invariant may speak of the events that are
still to come. -/
theorem along_of_unmarked_ahead (I : σ → List ε → Prop) (marked : σ → Prop) {s t : σ}
    {es : List ε} (start : I s es)
    (keep : ∀ s e es s', I s (e :: es) → step s e = some s' → C s e s' → I s' es)
    (marks : ∀ s e es s', I s (e :: es) → step s e = some s' → ¬ C s e s' → marked s')
    (stays : ∀ s e s', marked s → step s e = some s' → marked s')
    (reached : run step s es = some t) (clean : ¬ marked t) : Along step C s es := by
  induction es generalizing s with
  | nil => trivial
  | cons e es ih =>
    simp only [run_cons, Option.bind_eq_some_iff] at reached
    obtain ⟨s', hs, ht⟩ := reached
    have meets : C s e s' := by
      by_contra fails
      exact clean (invariant (marks s e es s' start hs fails) stays ht)
    intro s'' hs'
    cases Option.some.inj (hs.symm.trans hs')
    exact ⟨meets, ih (keep s e es s' start hs meets) ht⟩

theorem along_of_unmarked (marked : σ → Prop) {s t : σ} {es : List ε} (start : I s)
    (keep : ∀ s e s', I s → step s e = some s' → C s e s' → I s')
    (marks : ∀ s e s', I s → step s e = some s' → ¬ C s e s' → marked s')
    (stays : ∀ s e s', marked s → step s e = some s' → marked s')
    (reached : run step s es = some t) (clean : ¬ marked t) : Along step C s es :=
  along_of_unmarked_ahead (fun s _ => I s) marked start (fun s e _ s' => keep s e s')
    (fun s e _ s' => marks s e s') stays reached clean

theorem last_iff_carried {I M G dead : σ → Prop} {s t : σ} {es : List ε} (start : I s)
    (early : M s → G s) (keep : ∀ s e s', I s → step s e = some s' → I s')
    (carries : ∀ s e s', I s → step s e = some s' → ¬ dead s' → (M s' ↔ M s ∧ G s'))
    (stays : ∀ s e s', dead s → step s e = some s' → dead s')
    (reached : run step s es = some t) (alive : ¬ dead t) : M t ↔ M s ∧ Always step G s es := by
  induction es generalizing s with
  | nil =>
    cases Option.some.inj reached
    exact ⟨fun m => ⟨m, early m⟩, And.left⟩
  | cons e es ih =>
    simp only [run_cons, Option.bind_eq_some_iff] at reached
    obtain ⟨s', taken, rest⟩ := reached
    have lives : ¬ dead s' := fun gone => alive (invariant gone stays rest)
    have carry := carries s e s' start taken lives
    have later := ih (keep s e s' start taken) (fun m => (carry.mp m).2) rest
    simp only [Always, taken, Option.some.injEq, forall_eq']
    rw [later, carry]
    constructor
    · rintro ⟨⟨m, _⟩, always⟩
      exact ⟨m, early m, always⟩
    · rintro ⟨m, _, always⟩
      exact ⟨⟨m, always_first always⟩, always⟩

/-- `M` of the last state is `G` of every state, where each step carries `M` over where
the new state has `G`. What dies stays dead, and has nothing to carry. -/
theorem last_iff_always (I M G dead : σ → Prop) {s t : σ} {es : List ε} (start : I s)
    (begins : M s ↔ G s) (keep : ∀ s e s', I s → step s e = some s' → I s')
    (carries : ∀ s e s', I s → step s e = some s' → ¬ dead s' → (M s' ↔ M s ∧ G s'))
    (stays : ∀ s e s', dead s → step s e = some s' → dead s')
    (reached : run step s es = some t) (alive : ¬ dead t) : M t ↔ Always step G s es := by
  have carried := last_iff_carried start begins.mp keep carries stays reached alive
  constructor
  · intro m
    exact (carried.mp m).2
  · intro always
    exact carried.mpr ⟨begins.mpr (always_first always), always⟩

/-! Steps that answer. -/

universe w
variable {τ : Type u} {δ : Type v} {ω : Type w}

/-- All answers of a run, in order; `none` where a step is not enabled. -/
def answers (step : σ → ε → Option (List ω × σ)) (s : σ) : List ε → Option (List ω)
  | [] => some []
  | e :: es => (step s e).bind fun r => (answers step r.2 es).map (r.1 ++ ·)

def silent (step : σ → ε → Option (List ω × σ)) (s : σ) (e : ε) : Option σ :=
  (step s e).map Prod.snd

/-- A run answers what its projection on another machine answers, where each step
that meets `C` is matched there: by the same answers, or by no step and no answer. -/
theorem answers_simulated {step : σ → ε → Option (List ω × σ)}
    {step' : τ → δ → Option (List ω × τ)} {project : ε → Option δ} (R : σ → τ → Prop)
    (matched : ∀ s t e d out s', R s t → step s e = some (out, s') → C s e s' →
      project e = some d → ∃ t', step' t d = some (out, t') ∧ R s' t')
    (skipped : ∀ s t e out s', R s t → step s e = some (out, s') → C s e s' →
      project e = none → out = [] ∧ R s' t)
    {s : σ} {t : τ} {es : List ε} {outs : List ω} (start : R s t)
    (along : Along (silent step) C s es) (ran : answers step s es = some outs) :
    answers step' t (es.filterMap project) = some outs := by
  induction es generalizing s t outs with
  | nil => exact ran
  | cons e es ih =>
    simp only [answers, Option.bind_eq_some_iff, Option.map_eq_some_iff] at ran
    obtain ⟨⟨out, s'⟩, stepped, rest, tail, rfl⟩ := ran
    obtain ⟨meets, along⟩ := along s' (by simp [silent, stepped])
    cases here : project e with
    | none =>
      obtain ⟨rfl, related⟩ := skipped s t e out s' start stepped meets here
      rw [List.filterMap_cons_none here]
      exact ih related along tail
    | some d =>
      obtain ⟨t', stepped', related⟩ := matched s t e d out s' start stepped meets here
      rw [List.filterMap_cons_some here, answers, stepped', Option.bind_some,
        ih related along tail]
      rfl

end Runs
