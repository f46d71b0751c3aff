import Mathlib.Data.List.Nodup
import Mathlib.Data.List.Induction
import Mathlib.Order.Defs.PartialOrder

/-! Hash maps whose keys are views of storage that the mapped values own. An assignment
to a key that is in the map keeps the old key object and replaces only the value, so
a key may come to view storage that its own value no longer owns. -/
namespace Views

universe u v w
variable {κ : Type u} {η : Type v} {ν : Type w}

/-- By the content of the key: the storage its key object views, and its value. -/
abbrev Map (κ : Type u) (η : Type v) (ν : Type w) := κ → Option (η × ν)

structure Assignment (κ : Type u) (η : Type v) (ν : Type w) where
  key : κ
  handle : η
  value : ν

/-- Every key views storage that the value of some entry owns. -/
def Backed (owns : ν → η → Prop) (m : Map κ η ν) : Prop :=
  ∀ k h v, m k = some (h, v) → ∃ k' h' v', m k' = some (h', v') ∧ owns v' h

variable [DecidableEq κ]

/-- `map[key] = value`, where the key object would view `handle`. -/
def assign (m : Map κ η ν) (k : κ) (h : η) (v : ν) : Map κ η ν :=
  fun j => if j = k then some (((m k).map Prod.fst).getD h, v) else m j

def assignAll (as : List (Assignment κ η ν)) : Map κ η ν :=
  as.foldl (fun m a => assign m a.key a.handle a.value) fun _ => none

def assigned (as : List (Assignment κ η ν)) (k : κ) : List (Assignment κ η ν) :=
  as.filter fun a => a.key = k

/-- The value of each first assignment to a key is still that of a last one. -/
def FirstsKept (as : List (Assignment κ η ν)) : Prop :=
  ∀ k a, (assigned as k).head? = some a →
    ∃ j b, (assigned as j).getLast? = some b ∧ b.value = a.value

variable {as : List (Assignment κ η ν)} {k : κ} {a b : Assignment κ η ν}

theorem mem_assigned : a ∈ assigned as k ↔ a ∈ as ∧ a.key = k := by
  simp [assigned]

theorem assigned_concat (as : List (Assignment κ η ν)) (a : Assignment κ η ν) (k : κ) :
    assigned (as ++ [a]) k = if a.key = k then assigned as k ++ [a] else assigned as k := by
  by_cases here : a.key = k
  · simp [assigned, here]
  · simp [assigned, here]

/-- A key object is of the first assignment to its content, the value of the last. -/
theorem assignAll_apply (as : List (Assignment κ η ν)) (k : κ) :
    assignAll as k = (assigned as k).head?.bind fun a =>
      (assigned as k).getLast?.map fun b => (a.handle, b.value) := by
  induction as using List.reverseRecOn with
  | nil => rfl
  | append_singleton as c ih =>
    have before : assignAll (as ++ [c]) = assign (assignAll as) c.key c.handle c.value := by
      simp [assignAll]
    rw [before, assigned_concat]
    by_cases here : c.key = k
    · subst here
      simp only [assign, if_true, ih]
      cases earlier : assigned as c.key with
      | nil => simp
      | cons a rest => simp [List.getLast?_cons]
    · simp [assign, here, Ne.symm here, ih]

theorem assignAll_eq_some {h : η} {v : ν} : assignAll as k = some (h, v) ↔
    ∃ a b, (assigned as k).head? = some a ∧ (assigned as k).getLast? = some b ∧
      a.handle = h ∧ b.value = v := by
  simp only [assignAll_apply, Option.bind_eq_some_iff, Option.map_eq_some_iff, Prod.mk.injEq]
  constructor
  · rintro ⟨a, first, b, last, rfl, rfl⟩
    exact ⟨a, b, first, last, rfl, rfl⟩
  · rintro ⟨a, b, first, last, rfl, rfl⟩
    exact ⟨a, first, b, last, rfl, rfl⟩

theorem last_of_first (first : (assigned as k).head? = some a) :
    ∃ b, (assigned as k).getLast? = some b := by
  cases here : assigned as k with
  | nil => simp [here] at first
  | cons c rest => exact ⟨_, List.getLast?_cons⟩

theorem first_of_mem (member : a ∈ as) : ∃ b, (assigned as a.key).head? = some b := by
  cases here : assigned as a.key with
  | nil =>
    have mine : a ∈ assigned as a.key := mem_assigned.mpr ⟨member, rfl⟩
    simp [here] at mine
  | cons b rest => exact ⟨b, rfl⟩

theorem first_least [Preorder ν] (sorted : as.Pairwise fun a b => a.value ≤ b.value)
    (first : (assigned as k).head? = some a) (member : b ∈ as) (key : b.key = k) :
    a.value ≤ b.value := by
  have mine : b ∈ assigned as k := mem_assigned.mpr ⟨member, key⟩
  have later := sorted.filter fun a => a.key = k
  change (assigned as k).Pairwise _ at later
  cases here : assigned as k with
  | nil => simp [here] at first
  | cons c rest =>
    rw [here] at first mine later
    cases Option.some.inj first
    rcases List.mem_cons.mp mine with rfl | after
    · exact le_refl _
    · exact (List.pairwise_cons.mp later).1 b after

theorem last_greatest [Preorder ν] (sorted : as.Pairwise fun a b => a.value ≤ b.value)
    (last : (assigned as k).getLast? = some a) (member : b ∈ as) (key : b.key = k) :
    b.value ≤ a.value := by
  have mine : b ∈ assigned as k := mem_assigned.mpr ⟨member, key⟩
  have later := sorted.filter fun a => a.key = k
  change (assigned as k).Pairwise _ at later
  obtain ⟨init, split⟩ := List.getLast?_eq_some_iff.mp last
  rw [split] at mine later
  rcases List.mem_append.mp mine with before | this
  · exact (List.pairwise_append.mp later).2.2 b before a (List.mem_singleton_self a)
  · cases List.mem_singleton.mp this
    exact le_refl _

/-- Where storage belongs to the value of the one assignment that brought it, the keys
are backed exactly when the firsts are kept. -/
theorem backed_iff {owns : ν → η → Prop} (once : (as.map (·.handle)).Nodup)
    (owner : ∀ v h, owns v h ↔ ∃ a ∈ as, a.handle = h ∧ a.value = v) :
    Backed owns (assignAll as) ↔ FirstsKept as := by
  have own {k : κ} {a : Assignment κ η ν} (first : (assigned as k).head? = some a) (v : ν) :
      owns v a.handle ↔ v = a.value := by
    have member : a ∈ as := (mem_assigned.mp (List.mem_of_head? first)).1
    rw [owner]
    constructor
    · rintro ⟨b, other, same, rfl⟩
      rw [List.inj_on_of_nodup_map once other member same]
    · rintro rfl
      exact ⟨a, member, rfl, rfl⟩
  constructor
  · intro backed k a first
    obtain ⟨b, last⟩ := last_of_first first
    have mine := assignAll_eq_some.mpr ⟨a, b, first, last, rfl, rfl⟩
    obtain ⟨j, h, v, entry, owned⟩ := backed k _ _ mine
    obtain ⟨_, c, _, last', _, rfl⟩ := assignAll_eq_some.mp entry
    exact ⟨j, c, last', (own first _).mp owned⟩
  · intro kept k h v entry
    obtain ⟨a, _, first, _, rfl, _⟩ := assignAll_eq_some.mp entry
    obtain ⟨j, b, last, same⟩ := kept k a first
    obtain ⟨member, rfl⟩ := mem_assigned.mp (List.mem_of_getLast? last)
    obtain ⟨c, first'⟩ := first_of_mem member
    have entry' := assignAll_eq_some.mpr ⟨c, b, first', last, rfl, rfl⟩
    exact ⟨_, _, _, entry', (own first _).mpr same⟩

/-- Where no value is assigned twice, the firsts are kept exactly when no key is. -/
theorem firstsKept_iff (once : (as.map (·.value)).Nodup) :
    FirstsKept as ↔ (as.map (·.key)).Nodup := by
  have length (k : κ) : (as.map (·.key)).count k = (assigned as k).length := by
    simp [assigned, List.count, List.countP_eq_length_filter, List.filter_map, Function.comp_def,
      beq_eq_decide]
  simp only [List.nodup_iff_count_le_one, length]
  constructor
  · intro kept k
    cases here : assigned as k with
    | nil => simp
    | cons a rest =>
      obtain ⟨j, b, last, same⟩ := kept k a (by simp [here])
      have mine := mem_assigned.mp (here ▸ List.mem_cons_self : a ∈ assigned as k)
      have its := mem_assigned.mp (List.mem_of_getLast? last)
      cases List.inj_on_of_nodup_map once its.1 mine.1 same
      have key : j = k := its.2.symm.trans mine.2
      have distinct : (a :: rest).Nodup := by
        have all : as.Nodup := once.of_map
        exact here ▸ all.filter _
      cases rest with
      | nil => simp
      | cons c rest =>
        rw [key, here, List.getLast?_cons_cons] at last
        exact absurd (List.mem_of_getLast? last) (List.nodup_cons.mp distinct).1
  · intro single k a first
    cases here : assigned as k with
    | nil => simp [here] at first
    | cons c rest =>
      have short := single k
      cases rest with
      | nil => exact ⟨k, a, by simpa [here] using first, rfl⟩
      | cons d rest =>
        simp only [here, List.length_cons] at short
        omega

end Views
