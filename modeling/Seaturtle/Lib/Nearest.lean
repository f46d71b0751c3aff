import Mathlib.Data.List.MinMax

/-! Loops over a list that hold one element, and give it up only for a strictly nearer
one. What is held at first need not be as far away as the loop takes it to be. -/
namespace Nearest

universe u v w
variable {α : Type u} {β : Type v} {γ : Type w} [LinearOrder β]

/-- One turn: `tag` is what the loop keeps of an element, beside its distance. -/
def keep (tag : α → γ) (d : α → β) (held : γ × β) (x : α) : γ × β :=
  if d x < held.2 then (tag x, d x) else held

theorem keep_of_lt {tag : α → γ} {d : α → β} {held : γ × β} {x : α} (nearer : d x < held.2) :
    keep tag d held x = (tag x, d x) := if_pos nearer

theorem keep_of_le {tag : α → γ} {d : α → β} {held : γ × β} {x : α} (farther : held.2 ≤ d x) :
    keep tag d held x = held := if_neg (not_lt.mpr farther)

theorem keep_snd (tag : α → γ) (d : α → β) (held : γ × β) (x : α) :
    (keep tag d held x).2 = min held.2 (d x) := by
  grind [keep]

/-- Two turns keep the nearer of the two elements, the first one where they tie. -/
theorem keep_keep (tag : α → γ) (d : α → β) (held : γ × β) (x y : α) :
    keep tag d (keep tag d held x) y = keep tag d held (if d y < d x then y else x) := by
  grind [keep]

/-- The loop ends with the first of the nearest elements, if that is nearer than what
was held before. -/
theorem foldl_keep (tag : α → γ) (d : α → β) (held : γ × β) (xs : List α) :
    xs.foldl (keep tag d) held =
      match xs.argmin d with
      | none => held
      | some x => keep tag d held x := by
  induction xs generalizing held with
  | nil => rfl
  | cons x xs ih =>
    rw [List.foldl_cons, ih, List.argmin_cons]
    cases rest : xs.argmin d with
    | none => rfl
    | some y =>
      simp only [keep_keep]
      by_cases nearer : d y < d x
      · simp only [if_pos nearer]
      · simp only [if_neg nearer]

theorem foldl_keep_mem (tag : α → γ) (d : α → β) (held : γ × β) (xs : List α) :
    (xs.foldl (keep tag d) held).1 = held.1 ∨
      ∃ x ∈ xs, (xs.foldl (keep tag d) held).1 = tag x := by
  rw [foldl_keep]
  cases found : xs.argmin d with
  | none => exact .inl rfl
  | some x =>
    rcases lt_or_ge (d x) held.2 with nearer | farther
    · exact .inr ⟨x, List.argmin_mem found, congrArg Prod.fst (keep_of_lt nearer)⟩
    · exact .inl (congrArg Prod.fst (keep_of_le farther))

theorem exists_lt_iff {d : α → β} {xs : List α} {x : α} (found : xs.argmin d = some x) (b : β) :
    (∃ y ∈ xs, d y < b) ↔ d x < b := by
  constructor
  · rintro ⟨y, member, nearer⟩
    exact lt_of_le_of_lt (List.le_of_mem_argmin member found) nearer
  · intro nearer
    exact ⟨x, List.argmin_mem found, nearer⟩

/-- The nearest of all is the first element, or the nearest of the others. -/
theorem argmin_first {d : α → β} {first best x : α} {xs : List α} (found : xs.argmin d = some x)
    (is_best : (first :: xs).argmin d = some best) : best = if d x < d first then x else first := by
  rw [List.argmin_cons, found] at is_best
  simp only at is_best
  split
  · next nearer =>
    rw [if_pos nearer] at is_best
    exact (Option.some.inj is_best).symm
  · next farther =>
    rw [if_neg farther] at is_best
    exact (Option.some.inj is_best).symm

/-- A loop that takes its first element to be `b` away finds the nearest if `b` and the true
distance are on the same side of the nearest later one. -/
theorem finds_nearest {tag : α → γ} {d : α → β} {first best : α} {xs : List α} {b : β}
    (is_best : (first :: xs).argmin d = some best)
    (sides : (∃ x ∈ xs, d x < d first) ↔ ∃ x ∈ xs, d x < b) :
    (xs.foldl (keep tag d) (tag first, b)).1 = tag best := by
  rw [foldl_keep]
  cases found : xs.argmin d with
  | none =>
    rw [List.argmin_cons, found] at is_best
    cases is_best
    rfl
  | some x =>
    rw [exists_lt_iff found, exists_lt_iff found] at sides
    rw [argmin_first found is_best]
    change (keep tag d (tag first, b) x).1 = _
    by_cases taken : d x < b
    · rw [keep_of_lt taken, if_pos (sides.mpr taken)]
    · rw [keep_of_le (not_lt.mp taken), if_neg fun nearer => taken (sides.mp nearer)]

/-- With different tags, only then. -/
theorem finds_nearest_only {tag : α → γ} {d : α → β} {first best : α} {xs : List α} {b : β}
    (is_best : (first :: xs).argmin d = some best) (apart : ∀ x ∈ xs, tag x ≠ tag first)
    (finds : (xs.foldl (keep tag d) (tag first, b)).1 = tag best) :
    (∃ x ∈ xs, d x < d first) ↔ ∃ x ∈ xs, d x < b := by
  rw [foldl_keep] at finds
  cases found : xs.argmin d with
  | none =>
    rw [List.argmin_eq_none.mp found]
    simp
  | some x =>
    have different := apart x (List.argmin_mem found)
    rw [argmin_first found is_best] at finds
    rw [exists_lt_iff found, exists_lt_iff found]
    simp only [found] at finds
    by_cases taken : d x < b
    · rw [keep_of_lt taken] at finds
      refine iff_of_true ?_ taken
      by_contra farther
      rw [if_neg farther] at finds
      exact different finds
    · rw [keep_of_le (not_lt.mp taken)] at finds
      refine iff_of_false (fun nearer => ?_) taken
      rw [if_pos nearer] at finds
      exact different finds.symm

section
variable {σ : Type w} [OrderTop β]

/-- The distance of the nearest place; without a place it is infinite. -/
def least (d : σ → β) : List σ → β
  | [] => ⊤
  | s :: places => min (d s) (least d places)

theorem least_append (d : σ → β) (xs ys : List σ) :
    least d (xs ++ ys) = min (least d xs) (least d ys) := by
  induction xs with
  | nil => exact (min_eq_right le_top).symm
  | cons x xs ih => rw [List.cons_append, least, least, ih, min_assoc]

theorem least_congr {d e : σ → β} {places : List σ} (same : ∀ s ∈ places, d s = e s) :
    least d places = least e places := by
  induction places with
  | nil => rfl
  | cons s places ih =>
    rw [least, least, same s List.mem_cons_self,
      ih fun s member => same s (List.mem_cons_of_mem _ member)]

/-- A loop over the places of one element holds it by the nearest of them. -/
theorem foldl_keep_places (t : γ) (d : σ → β) (held : γ × β) (places : List σ) :
    places.foldl (keep (fun _ => t) d) held =
      if least d places < held.2 then (t, least d places) else held := by
  induction places generalizing held with
  | nil => exact (if_neg not_top_lt).symm
  | cons s places ih =>
    have turn : keep (fun _ => t) d held s = if d s < held.2 then (t, d s) else held := rfl
    simp only [List.foldl_cons, ih, least, turn]
    grind

theorem foldl_keep_snd (tag : α → γ) (d : σ → β) (places : α → List σ) (held : γ × β)
    (xs : List α) :
    (xs.foldl (keep tag fun x => least d (places x)) held).2 =
      min held.2 (least d (xs.flatMap places)) := by
  induction xs generalizing held with
  | nil => exact (min_eq_left le_top).symm
  | cons x xs ih =>
    rw [List.foldl_cons, ih, keep_snd, List.flatMap_cons, least_append, min_assoc]

theorem foldl_keep_top (tag : α → γ) (d : σ → β) (places : α → List σ) (t : γ) (xs : List α) :
    (xs.foldl (keep tag fun x => least d (places x)) (t, ⊤)).2 = least d (xs.flatMap places) := by
  rw [foldl_keep_snd]
  exact min_eq_right le_top

end

end Nearest
