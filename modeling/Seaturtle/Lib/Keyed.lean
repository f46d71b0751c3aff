import Mathlib.Data.List.Basic

/-! Stores that fall into parts by a key, operations that keep to the parts, and
one store divided over two so that every part is whole in one of them. -/
namespace Keyed

universe u v w x
variable {σ : Type u} {κ : Type v} {π : Type w} {ω : Type x}

/-- The operation reads and changes nothing but the part of `k`. -/
structure OnlyAt (part : κ → σ → π) (k : κ) (op : σ → ω × σ) : Prop where
  answer : ∀ s t, part k s = part k t → (op s).1 = (op t).1
  effect : ∀ s t, part k s = part k t → part k (op s).2 = part k (op t).2
  frame : ∀ j s, j ≠ k → part j (op s).2 = part j s

/-- The operation treats every part by itself and leaves an empty part empty. -/
structure Partwise (part : κ → σ → π) (empty : π) (op : σ → ω × σ) : Prop where
  effect : ∀ k s t, part k s = part k t → part k (op s).2 = part k (op t).2
  nothing : ∀ k s, part k s = empty → part k (op s).2 = empty

/-- Every part of `whole` is in `a` or in `b`, and the other has nothing of it. -/
def Divided (part : κ → σ → π) (empty : π) (whole a b : σ) : Prop :=
  ∀ k, part k a = part k whole ∧ part k b = empty ∨ part k a = empty ∧ part k b = part k whole

variable {part : κ → σ → π} {empty : π} {whole a b : σ} {k : κ} {op : σ → ω × σ}

theorem divided_symm (h : Divided part empty whole a b) : Divided part empty whole b a := by
  intro k
  rcases h k with ⟨here, there⟩ | ⟨here, there⟩
  · exact .inr ⟨there, here⟩
  · exact .inl ⟨there, here⟩

theorem part_of_divided (h : Divided part empty whole a b) (none : part k b = empty) :
    part k a = part k whole := by
  rcases h k with ⟨here, _⟩ | ⟨here, there⟩
  · exact here
  · exact here.trans (none.symm.trans there)

/-- An operation on a part, run on the store that has it, answers what it answers
on the whole, and leaves the whole divided. -/
theorem onlyAt_divided (h : Divided part empty whole a b) (local_ : OnlyAt part k op)
    (none : part k b = empty) :
    (op a).1 = (op whole).1 ∧ Divided part empty (op whole).2 (op a).2 b := by
  have same := part_of_divided h none
  refine ⟨local_.answer a whole same, fun j => ?_⟩
  by_cases here : j = k
  · subst here
    exact .inl ⟨local_.effect a whole same, none⟩
  · rw [local_.frame j a here, local_.frame j whole here]
    exact h j

theorem partwise_divided (h : Divided part empty whole a b) (all : Partwise part empty op) :
    Divided part empty (op whole).2 (op a).2 (op b).2 := by
  intro k
  rcases h k with ⟨here, there⟩ | ⟨here, there⟩
  · exact .inl ⟨all.effect k a whole here, all.nothing k b there⟩
  · exact .inr ⟨all.nothing k a here, all.effect k b whole there⟩

end Keyed
