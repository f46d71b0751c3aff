import Mathlib.Data.List.Count
import Mathlib.Data.List.Perm.Basic

/-! Reference counts. An object is freed when its count falls to zero; where the counts are
those of the holders, that is when the last holder lets it go, and never before. -/
namespace RefCounts

universe u
variable {κ : Type u} [DecidableEq κ]

structure Counts (κ : Type u) where
  refs : κ → Nat := fun _ => 0
  freed : List κ := []

def addRef (c : Counts κ) (k : κ) : Counts κ :=
  { c with refs := fun l => if l = k then c.refs l + 1 else c.refs l }

def release (c : Counts κ) (k : κ) : Counts κ where
  refs l := if l = k then c.refs l - 1 else c.refs l
  freed := if c.refs k = 1 then k :: c.freed else c.freed

/-- The counts are those of the holders. Freed are the objects that have been given to
somebody and that nobody holds. -/
structure Held (given : κ → Prop) (holders : List κ) (c : Counts κ) : Prop where
  counted : ∀ k, c.refs k = holders.count k
  known : ∀ k ∈ holders, given k
  freed_iff : ∀ k, k ∈ c.freed ↔ given k ∧ k ∉ holders
  once : c.freed.Nodup

variable {given given' : κ → Prop} {holders holders' : List κ} {c : Counts κ} {k : κ}

theorem held_none : Held (fun _ : κ => False) [] ({} : Counts κ) :=
  ⟨fun _ => rfl, fun _ none => (List.not_mem_nil none).elim, fun _ => by simp, List.nodup_nil⟩

theorem held_perm (h : Held given holders c) (same : holders.Perm holders') :
    Held given holders' c := by
  refine ⟨fun k => ?_, fun k member => h.known k (same.mem_iff.mpr member), fun k => ?_, h.once⟩
  · rw [h.counted, same.count_eq]
  · rw [h.freed_iff, same.mem_iff]

/-- A reference is taken to an object that is new, or that has not been freed. -/
theorem held_addRef (h : Held given holders c) (alive : k ∉ c.freed)
    (knows : ∀ l, given' l ↔ given l ∨ l = k) : Held given' (k :: holders) (addRef c k) := by
  constructor
  · intro l
    by_cases here : l = k
    · subst here
      simp [addRef, h.counted]
    · simp [addRef, h.counted, here, Ne.symm here]
  · intro l member
    rw [knows]
    rcases List.mem_cons.mp member with rfl | old
    · exact .inr rfl
    · exact .inl (h.known l old)
  · intro l
    change l ∈ c.freed ↔ _
    rw [knows, List.mem_cons, not_or]
    constructor
    · intro freed
      obtain ⟨was, unheld⟩ := (h.freed_iff l).mp freed
      exact ⟨.inl was, fun here => alive (here ▸ freed), unheld⟩
    · rintro ⟨was | here, other, unheld⟩
      · exact (h.freed_iff l).mpr ⟨was, unheld⟩
      · exact absurd here other
  · exact h.once

/-- One more reference to an object that somebody holds already. -/
theorem held_share (h : Held given holders c) (alive : k ∉ c.freed) (was : given k) :
    Held given (k :: holders) (addRef c k) := by
  refine held_addRef h alive fun l => ⟨.inl, ?_⟩
  rintro (old | rfl)
  · exact old
  · exact was

theorem held_release (h : Held given (k :: holders) c) : Held given holders (release c k) := by
  have count : c.refs k = holders.count k + 1 := by
    rw [h.counted, List.count_cons_self]
  have last : c.refs k = 1 ↔ k ∉ holders := by
    rw [count, ← List.count_eq_zero]
    omega
  have held : k ∉ c.freed := fun freed => ((h.freed_iff k).mp freed).2 List.mem_cons_self
  constructor
  · intro l
    by_cases here : l = k
    · subst here
      simp [release, count]
    · simp [release, h.counted, here, Ne.symm here]
  · exact fun l member => h.known l (List.mem_cons_of_mem k member)
  · intro l
    have before := h.freed_iff l
    rw [List.mem_cons, not_or] at before
    by_cases here : l = k
    · subst here
      by_cases gone : c.refs l = 1
      · simp [release, gone, last.mp gone, h.known l List.mem_cons_self]
      · simp [release, gone, held, not_not.mp (fun away => gone (last.mpr away))]
    · by_cases gone : c.refs k = 1
      · simp [release, gone, here, before]
      · simp [release, gone, here, before]
  · unfold release
    dsimp only
    split
    · exact List.nodup_cons.mpr ⟨held, h.once⟩
    · exact h.once

theorem alive_of_held (h : Held given holders c) (member : k ∈ holders) : k ∉ c.freed :=
  fun freed => ((h.freed_iff k).mp freed).2 member

theorem held_iff_alive (h : Held given holders c) (was : given k) : k ∈ holders ↔ k ∉ c.freed := by
  rw [h.freed_iff]
  constructor
  · exact fun member freed => freed.2 member
  · exact fun alive => by_contra fun away => alive ⟨was, away⟩

end RefCounts
