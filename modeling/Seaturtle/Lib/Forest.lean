import Mathlib.Data.List.Basic

/-! Family trees. A founder brings a label of its own, a child takes its parent's,
so that two nodes are of one tree exactly when they bear one label. -/
namespace Forest

universe u v
variable {κ : Type u} {ℓ : Type v}

structure Birth (κ : Type u) (ℓ : Type v) where
  node : κ
  parent : Option κ
  label : ℓ
  deriving DecidableEq

/-- The chain of parents leads from a node to a founder. -/
inductive LeadsTo (bs : List (Birth κ ℓ)) : κ → κ → Prop where
  | founder {b : Birth κ ℓ} (born : b ∈ bs) (alone : b.parent = none) : LeadsTo bs b.node b.node
  | child {b : Birth κ ℓ} {p r : κ} (born : b ∈ bs) (parent : b.parent = some p)
      (up : LeadsTo bs p r) : LeadsTo bs b.node r

def SameTree (bs : List (Birth κ ℓ)) (a b : κ) : Prop := ∃ r, LeadsTo bs a r ∧ LeadsTo bs b r

structure Inherited (bs : List (Birth κ ℓ)) : Prop where
  once : ∀ b ∈ bs, ∀ c ∈ bs, b.node = c.node → b = c
  parent : ∀ b ∈ bs, ∀ p, b.parent = some p → ∃ c ∈ bs, c.node = p ∧ c.label = b.label
  apart : ∀ b ∈ bs, ∀ c ∈ bs, b.parent = none → c.parent = none → b.label = c.label → b = c
  rooted : ∀ b ∈ bs, ∃ r, LeadsTo bs b.node r

variable {bs : List (Birth κ ℓ)}

theorem inherited_nil : Inherited ([] : List (Birth κ ℓ)) :=
  ⟨fun _ h => (List.not_mem_nil h).elim, fun _ h => (List.not_mem_nil h).elim,
    fun _ h => (List.not_mem_nil h).elim, fun _ h => (List.not_mem_nil h).elim⟩

theorem leadsTo_cons {a r : κ} (b : Birth κ ℓ) (h : LeadsTo bs a r) : LeadsTo (b :: bs) a r := by
  induction h with
  | founder born alone => exact .founder (List.mem_cons_of_mem b born) alone
  | child born parent _ ih => exact .child (List.mem_cons_of_mem b born) parent ih

theorem once_cons {b : Birth κ ℓ} (h : Inherited bs) (new : ∀ c ∈ bs, c.node ≠ b.node) :
    ∀ c ∈ b :: bs, ∀ d ∈ b :: bs, c.node = d.node → c = d := by
  intro c hc d hd same
  rcases List.mem_cons.mp hc with here | old <;> rcases List.mem_cons.mp hd with here' | old'
  · exact here.trans here'.symm
  · exact absurd (here ▸ same.symm) (new d old')
  · exact absurd (here' ▸ same) (new c old)
  · exact h.once c old d old' same

theorem inherited_founder {b : Birth κ ℓ} (h : Inherited bs) (alone : b.parent = none)
    (new : ∀ c ∈ bs, c.node ≠ b.node) (label : ∀ c ∈ bs, c.label ≠ b.label) :
    Inherited (b :: bs) := by
  constructor
  · exact once_cons h new
  · intro c hc p hp
    rcases List.mem_cons.mp hc with rfl | hc
    · rw [alone] at hp
      cases hp
    · obtain ⟨d, hd, named⟩ := h.parent c hc p hp
      exact ⟨d, List.mem_cons_of_mem b hd, named⟩
  · intro c hc d hd founder founder' same
    rcases List.mem_cons.mp hc with here | old <;> rcases List.mem_cons.mp hd with here' | old'
    · exact here.trans here'.symm
    · exact absurd (here ▸ same.symm) (label d old')
    · exact absurd (here' ▸ same) (label c old)
    · exact h.apart c old d old' founder founder' same
  · intro c hc
    rcases List.mem_cons.mp hc with rfl | hc
    · exact ⟨_, .founder List.mem_cons_self alone⟩
    · obtain ⟨r, hr⟩ := h.rooted c hc
      exact ⟨r, leadsTo_cons b hr⟩

theorem inherited_child {b c : Birth κ ℓ} (h : Inherited bs) (old : c ∈ bs)
    (parent : b.parent = some c.node) (new : ∀ d ∈ bs, d.node ≠ b.node)
    (label : c.label = b.label) : Inherited (b :: bs) := by
  constructor
  · exact once_cons h new
  · intro d hd p hp
    rcases List.mem_cons.mp hd with rfl | hd
    · cases parent.symm.trans hp
      exact ⟨c, List.mem_cons_of_mem d old, rfl, label⟩
    · obtain ⟨e, he, named⟩ := h.parent d hd p hp
      exact ⟨e, List.mem_cons_of_mem b he, named⟩
  · intro d hd e he founder founder' same
    have orphan : ∀ x ∈ b :: bs, x.parent = none → x ∈ bs := by
      intro x hx none
      rcases List.mem_cons.mp hx with rfl | hx
      · rw [parent] at none
        cases none
      · exact hx
    exact h.apart d (orphan d hd founder) e (orphan e he founder') founder founder' same
  · intro d hd
    rcases List.mem_cons.mp hd with rfl | hd
    · obtain ⟨r, hr⟩ := h.rooted c old
      exact ⟨r, .child List.mem_cons_self parent (leadsTo_cons d hr)⟩
    · obtain ⟨r, hr⟩ := h.rooted d hd
      exact ⟨r, leadsTo_cons b hr⟩

/-- The founder that a chain leads to bears the label of the node it starts from. -/
theorem founder_of_leadsTo {a r : κ} (h : Inherited bs) (chain : LeadsTo bs a r) :
    ∀ b ∈ bs, b.node = a → ∃ f ∈ bs, f.node = r ∧ f.parent = none ∧ f.label = b.label := by
  induction chain with
  | @founder c born alone =>
    intro b hb same
    cases h.once b hb c born same
    exact ⟨_, born, rfl, alone, rfl⟩
  | @child c p r born parent _ ih =>
    intro b hb same
    cases h.once b hb c born same
    obtain ⟨d, hd, named, label⟩ := h.parent _ born p parent
    obtain ⟨f, hf, name, alone, inherited⟩ := ih d hd named
    exact ⟨f, hf, name, alone, inherited.trans label⟩

theorem sameTree_iff {a b : Birth κ ℓ} (h : Inherited bs) (ha : a ∈ bs) (hb : b ∈ bs) :
    SameTree bs a.node b.node ↔ a.label = b.label := by
  constructor
  · rintro ⟨r, up, up'⟩
    obtain ⟨f, hf, name, _, label⟩ := founder_of_leadsTo h up a ha rfl
    obtain ⟨g, hg, name', _, label'⟩ := founder_of_leadsTo h up' b hb rfl
    cases h.once f hf g hg (name.trans name'.symm)
    exact label.symm.trans label'
  · intro same
    obtain ⟨r, up⟩ := h.rooted a ha
    obtain ⟨r', up'⟩ := h.rooted b hb
    obtain ⟨f, hf, name, alone, label⟩ := founder_of_leadsTo h up a ha rfl
    obtain ⟨g, hg, name', alone', label'⟩ := founder_of_leadsTo h up' b hb rfl
    cases h.apart f hf g hg alone alone' (label.trans (same.trans label'.symm))
    cases name.symm.trans name'
    exact ⟨_, up, up'⟩

end Forest
