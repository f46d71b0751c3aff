import Mathlib.Data.List.Sort

/-! Lists joined in a loop that puts a separator before every piece but the first,
and knows the first by having nothing yet. Pieces cut into groups of one size, and
pieces gathered by a key. -/
namespace Joins

universe u v
variable {α : Type u} {κ : Type v} {sep : List α}

/-- What a loop keeps of the elements that it has passed. -/
theorem loop_invariant {β : Type u} {ε : Type v} {f : β → ε → β} {s : β}
    (P : β → List ε → Prop) (start : P s [])
    (step : ∀ s passed x, P s passed → P (f s x) (passed ++ [x])) (xs : List ε) :
    P (xs.foldl f s) xs := by
  have from_ (xs : List ε) : ∀ s passed, P s passed → P (xs.foldl f s) (passed ++ xs) := by
    induction xs with
    | nil => simp
    | cons x xs ih =>
      intro s passed h
      have rest := ih (f s x) (passed ++ [x]) (step s passed x h)
      rwa [List.append_assoc] at rest
  exact from_ xs s [] start

/-- What one round of the loop makes of what it has. -/
def add (sep joined piece : List α) : List α :=
  (if joined.isEmpty then joined else joined ++ sep) ++ piece

theorem intercalate_append {xs ys : List (List α)} (some_xs : xs ≠ []) (some_ys : ys ≠ []) :
    sep.intercalate (xs ++ ys) = sep.intercalate xs ++ sep ++ sep.intercalate ys := by
  induction xs with
  | nil => exact absurd rfl some_xs
  | cons x xs ih =>
    cases xs with
    | nil => simp [List.intercalate_cons_of_ne_nil some_ys]
    | cons y xs =>
      have rest := ih (List.cons_ne_nil y xs)
      rw [List.cons_append, List.cons_append, List.intercalate_cons_cons, ← List.cons_append, rest,
        List.intercalate_cons_cons]
      simp only [List.append_assoc]

theorem intercalate_concat {xs : List (List α)} (some_xs : xs ≠ []) (x : List α) :
    sep.intercalate (xs ++ [x]) = sep.intercalate xs ++ sep ++ x := by
  rw [intercalate_append some_xs (List.cons_ne_nil x []), List.intercalate_singleton]

/-- Nothing yet means no piece yet, when no piece is empty. -/
theorem intercalate_eq_nil {xs : List (List α)} (solid : ∀ x ∈ xs, x ≠ []) :
    sep.intercalate xs = [] ↔ xs = [] := by
  cases xs with
  | nil => simp
  | cons x xs =>
    have here : x ≠ [] := solid x List.mem_cons_self
    cases xs with
    | nil => simp [here]
    | cons y xs => simp [List.intercalate_cons_cons, here]

/-- One round joins pieces to pieces, also where what it appends is itself joined. -/
theorem add_intercalate {xs ys : List (List α)} (solid : ∀ x ∈ xs, x ≠ []) (some_ys : ys ≠ []) :
    add sep (sep.intercalate xs) (sep.intercalate ys) = sep.intercalate (xs ++ ys) := by
  unfold add
  cases xs with
  | nil => rfl
  | cons x xs =>
    have something : (sep.intercalate (x :: xs)).isEmpty = false := by
      rw [List.isEmpty_eq_false_iff, ne_eq, intercalate_eq_nil solid]
      exact List.cons_ne_nil x xs
    rw [something, intercalate_append (List.cons_ne_nil x xs) some_ys]
    rfl

theorem add_piece {xs : List (List α)} (solid : ∀ x ∈ xs, x ≠ []) (x : List α) :
    add sep (sep.intercalate xs) x = sep.intercalate (xs ++ [x]) := by
  rw [← add_intercalate solid (List.cons_ne_nil x []), List.intercalate_singleton]

/-- Consecutive groups of `xs`: all are full but the last, which is not empty. -/
structure Grouped (n : Nat) (xs : List α) (groups : List (List α)) : Prop where
  whole : groups.flatten = xs
  full : ∀ g ∈ groups.dropLast, g.length = n
  last : ∀ g ∈ groups.getLast?, 1 ≤ g.length ∧ g.length ≤ n

/-- A loop has full groups and an open one; what it has at the end is grouped. -/
theorem grouped_of_full {n : Nat} {groups : List (List α)} {part : List α}
    (full : ∀ g ∈ groups, g.length = n) (open_ : part.length < n) :
    Grouped n (groups.flatten ++ part) (if part = [] then groups else groups ++ [part]) := by
  split
  · next none =>
    constructor
    · simp [none]
    · exact fun g member => full g (List.dropLast_subset groups member)
    · intro g member
      have size := full g (List.mem_of_getLast? member)
      omega
  · next something =>
    have positive := List.length_pos_iff.mpr something
    constructor
    · simp
    · rw [List.dropLast_concat]
      exact full
    · intro g member
      rw [List.getLast?_concat, Option.mem_some_iff] at member
      subst member
      omega

theorem grouped_eq_nil {n : Nat} {xs : List α} {groups : List (List α)} (h : Grouped n xs groups) :
    groups = [] ↔ xs = [] := by
  constructor
  · rintro rfl
    exact h.whole.symm
  · intro nothing
    by_contra some_groups
    have size := (h.last _ (List.getLast?_eq_some_getLast some_groups)).1
    have inside := List.getLast_mem some_groups
    have empty := h.whole
    rw [nothing, List.flatten_eq_nil_iff] at empty
    rw [empty _ inside] at size
    exact Nat.not_succ_le_zero _ size

variable [DecidableEq κ]

/-- The elements with the first key, then those with the second, and so on. -/
def gather (key : α → κ) (ks : List κ) (xs : List α) : List α :=
  ks.flatMap fun k => xs.filter (key · = k)

theorem gather_concat (key : α → κ) (ks : List κ) (k : κ) (xs : List α) :
    gather key (ks ++ [k]) xs = gather key ks xs ++ xs.filter (key · = k) := by
  unfold gather
  rw [List.flatMap_append, List.flatMap_singleton]

theorem mem_of_mem_gather {key : α → κ} {ks : List κ} {xs : List α} {x : α}
    (h : x ∈ gather key ks xs) : x ∈ xs := by
  obtain ⟨k, _, inside⟩ := List.mem_flatMap.mp h
  exact (List.mem_filter.mp inside).1

theorem orderedInsert_front {r : α → α → Prop} [DecidableRel r] {x : α} {xs : List α}
    (below : ∀ y ∈ xs, r x y) : xs.orderedInsert r x = x :: xs := by
  cases xs with
  | nil => rfl
  | cons y xs => exact List.orderedInsert_cons_of_le r xs (below y List.mem_cons_self)

theorem orderedInsert_behind {r : α → α → Prop} [DecidableRel r] {x : α} {pre rest : List α}
    (above : ∀ y ∈ pre, ¬ r x y) :
    (pre ++ rest).orderedInsert r x = pre ++ rest.orderedInsert r x := by
  induction pre with
  | nil => rfl
  | cons y pre ih =>
    rw [List.cons_append, List.orderedInsert_of_not_le r _ (above y List.mem_cons_self), ih]
    · rfl
    · exact fun z member => above z (List.mem_cons_of_mem y member)

theorem gather_cons_of_not_mem {key : α → κ} {ks : List κ} {x : α} (xs : List α)
    (other : key x ∉ ks) : gather key ks (x :: xs) = gather key ks xs := by
  apply List.flatMap_congr
  intro k member
  have differs : key x ≠ k := fun same => other (same ▸ member)
  simp [differs]

theorem key_mem_of_mem_gather {key : α → κ} {ks : List κ} {xs : List α} {x : α}
    (h : x ∈ gather key ks xs) : key x ∈ ks := by
  obtain ⟨k, member, inside⟩ := List.mem_flatMap.mp h
  have same : key x = k := by simpa using (List.mem_filter.mp inside).2
  exact same ▸ member

theorem gather_cons {key : α → κ} {rank : κ → Nat} {ks : List κ}
    (decreasing : ks.Pairwise fun j k => rank k < rank j) {x : α} (xs : List α) (h : key x ∈ ks) :
    gather key ks (x :: xs) =
      (gather key ks xs).orderedInsert (fun a b => rank (key b) ≤ rank (key a)) x := by
  induction ks with
  | nil => exact absurd h List.not_mem_nil
  | cons k ks ih =>
    rw [List.pairwise_cons] at decreasing
    have split (ys : List α) : gather key (k :: ks) ys =
        ys.filter (key · = k) ++ gather key ks ys := List.flatMap_cons
    rw [split, split]
    by_cases here : key x = k
    · -- It is the first of the first group, and nothing later ranks as high.
      have elsewhere : key x ∉ ks := by
        intro member
        have lower := decreasing.1 _ member
        rw [here] at lower
        exact absurd lower (Nat.lt_irrefl _)
      rw [gather_cons_of_not_mem xs elsewhere, List.filter_cons_of_pos (by simpa using here),
        orderedInsert_front]
      · rfl
      · intro y member
        rcases List.mem_append.mp member with first | later
        · have same : key y = k := by simpa using (List.mem_filter.mp first).2
          rw [same, here]
        · rw [here]
          exact Nat.le_of_lt (decreasing.1 _ (key_mem_of_mem_gather later))
    · have later : key x ∈ ks := (List.mem_cons.mp h).resolve_left here
      rw [List.filter_cons_of_neg (by simpa using here), ih decreasing.2 later,
        orderedInsert_behind]
      intro y member
      have same : key y = k := by simpa using (List.mem_filter.mp member).2
      rw [same, Nat.not_le]
      exact decreasing.1 _ later

/-- Gathering along keys of decreasing rank is the stable sort by rank. -/
theorem gather_eq_insertionSort (key : α → κ) {rank : κ → Nat} {ks : List κ}
    (decreasing : ks.Pairwise fun j k => rank k < rank j) (xs : List α) :
    gather key ks xs = (xs.filter (key · ∈ ks)).insertionSort
      (fun a b => rank (key b) ≤ rank (key a)) := by
  induction xs with
  | nil =>
    unfold gather
    simp
  | cons x xs ih =>
    by_cases here : key x ∈ ks
    · rw [gather_cons decreasing xs here, ih, List.filter_cons_of_pos (by simpa using here)]
      rfl
    · rw [gather_cons_of_not_mem xs here, ih, List.filter_cons_of_neg (by simpa using here)]

end Joins
