import Mathlib.Order.Basic
import Mathlib.Data.List.Basic

/-! Numbered cells, each given out once and to one tenant. What a cell contains is what its
tenant is due, as long as tenants write through their own cells alone. -/
namespace Tenants

universe u v
variable {κ : Type u} {α : Type v}

/-- `next` is the number of the first cell that nobody has. -/
structure Kept (cell : κ → Option Nat) (next : Nat) (content : Nat → α) (due : κ → α) (empty : α) :
    Prop where
  below : ∀ k n, cell k = some n → n < next
  apart : ∀ k l n, cell k = some n → cell l = some n → k = l
  holds : ∀ k n, cell k = some n → content n = due k
  fresh : ∀ n, next ≤ n → content n = empty

variable {cell cell' : κ → Option Nat} {next next' n : Nat} {content content' : Nat → α}
  {due due' : κ → α} {empty : α} {k : κ}

theorem kept_none (none : ∀ k, cell k = none) (unwritten : ∀ n, content n = empty) :
    Kept cell next content due empty := by
  have unused {k : κ} {n : Nat} (has : cell k = some n) : False := by
    rw [none] at has
    cases has
  exact ⟨fun _ _ has => (unused has).elim, fun _ _ _ has => (unused has).elim,
    fun _ _ has => (unused has).elim, fun n _ => unwritten n⟩

/-- Who has no cell may be due anything. -/
theorem kept_due (h : Kept cell next content due empty)
    (same : ∀ k n, cell k = some n → due' k = due k) : Kept cell next content due' empty := by
  refine ⟨h.below, h.apart, fun k n has => ?_, h.fresh⟩
  rw [h.holds k n has, same k n has]

/-- A tenant writes its cell, and is due what it has written. -/
theorem kept_write (h : Kept cell next content due empty) (has : cell k = some n)
    (here : content' n = due' k) (others : ∀ m, m ≠ n → content' m = content m)
    (same : ∀ l, l ≠ k → due' l = due l) : Kept cell next content' due' empty := by
  refine ⟨h.below, h.apart, fun l m hasToo => ?_, fun m above => ?_⟩
  · by_cases tenant : l = k
    · subst tenant
      cases Option.some.inj (has.symm.trans hasToo)
      exact here
    · have other : m ≠ n := by
        rintro rfl
        exact tenant (h.apart l k m hasToo has)
      rw [others m other, h.holds l m hasToo, same l tenant]
  · have other : m ≠ n := by
      rintro rfl
      exact absurd (h.below k m has) (Nat.not_lt.mpr above)
    rw [others m other, h.fresh m above]

/-- A tenant comes that is due nothing; it may be given a cell that nobody has had. -/
theorem kept_grant (h : Kept cell next content due empty) (nothing : due k = empty)
    (given : ∀ n, cell' k = some n → next ≤ n ∧ n < next') (above : next ≤ next')
    (same : ∀ l, l ≠ k → cell' l = cell l) : Kept cell' next' content due empty := by
  have old {l : κ} {m : Nat} (tenant : l ≠ k) (has : cell' l = some m) : cell l = some m :=
    (same l tenant).symm.trans has
  have strange {l : κ} {m : Nat} (tenant : l ≠ k) (has : cell' l = some m) : cell' k ≠ some m := by
    intro new
    exact absurd (h.below l m (old tenant has)) (Nat.not_lt.mpr (given m new).1)
  refine ⟨fun l m has => ?_, fun l j m has hasToo => ?_, fun l m has => ?_, fun m far => ?_⟩
  · by_cases tenant : l = k
    · subst tenant
      exact (given m has).2
    · exact Nat.lt_of_lt_of_le (h.below l m (old tenant has)) above
  · by_cases first : l = k
    · by_cases second : j = k
      · exact first.trans second.symm
      · exact absurd (first ▸ has) (strange second hasToo)
    · by_cases second : j = k
      · exact absurd (second ▸ hasToo) (strange first has)
      · exact h.apart l j m (old first has) (old second hasToo)
  · by_cases tenant : l = k
    · subst tenant
      rw [h.fresh m (given m has).1, nothing]
    · exact h.holds l m (old tenant has)
  · exact h.fresh m (Nat.le_trans above far)

end Tenants
