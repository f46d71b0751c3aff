import Mathlib.Data.List.Basic
import Mathlib.Data.List.Infix

/-! Walking a list through the suffixes that follow a separator. The walk visits
the list, cuts it behind its first separator and goes on; it ends where no
separator is left or nothing follows it. A visit may end the walk early. -/
namespace SuffixWalk

universe u v w
variable {α : Type u} [DecidableEq α] {ρ : Type v} {σ : Type v}

/-- `.error r` ends the walk with `r`, `.ok s` goes on with `s`. -/
def walk (sep : α) (visit : σ → List α → Except ρ σ) (s : σ) (xs : List α) : Except ρ σ :=
  match xs.idxOf? sep with
  | none => .ok s
  | some pos =>
    match visit s xs with
    | .error r => .error r
    | .ok s' =>
      if xs.length ≤ pos + 1 then .ok s' else walk sep visit s' (xs.drop (pos + 1))
termination_by xs.length
decreasing_by
  simp only [List.length_drop]
  omega

/-- The walk of a loop that keeps no state: what the first visit that returns
something returns. -/
def search (sep : α) (visit : List α → Option ρ) (xs : List α) : Option ρ :=
  match walk sep (fun (_ : PUnit) ys => (visit ys).elim (.ok ⟨⟩) .error) ⟨⟩ xs with
  | .error r => some r
  | .ok _ => none

/-- The walk of a loop that always goes on. -/
def fold (sep : α) (visit : σ → List α → σ) (s : σ) (xs : List α) : σ :=
  match walk sep (fun s ys => (.ok (visit s ys) : Except PEmpty σ)) s xs with
  | .ok s' => s'

def rests (sep : α) : List α → List (List α)
  | [] => []
  | x :: xs => if x = sep then xs :: rests sep xs else rests sep xs

/-- What the walk visits when no visit ends it. -/
def suffixes (sep : α) (xs : List α) : List (List α) :=
  (xs :: rests sep xs).filter (sep ∈ ·)

/-- `xs` is `d` or ends with a separator and `d`. -/
def Under (sep : α) (d xs : List α) : Prop := xs = d ∨ sep :: d <:+ xs

instance (sep : α) (d xs : List α) : Decidable (Under sep d xs) :=
  inferInstanceAs (Decidable (_ ∨ _))

theorem mem_rests {sep : α} {d xs : List α} : d ∈ rests sep xs ↔ sep :: d <:+ xs := by
  induction xs with
  | nil => simp [rests]
  | cons x xs ih =>
    rw [List.suffix_cons_iff, rests]
    split
    · next hx =>
      subst hx
      rw [List.mem_cons, ih, List.cons.injEq]
      simp
    · next hx =>
      rw [ih, List.cons.injEq]
      constructor
      · exact Or.inr
      · rintro (⟨rfl, -⟩ | h)
        · exact absurd rfl hx
        · exact h

theorem mem_suffixes {sep : α} {d xs : List α} :
    d ∈ suffixes sep xs ↔ sep ∈ d ∧ Under sep d xs := by
  rw [suffixes, List.mem_filter, List.mem_cons, mem_rests, decide_eq_true_eq, Under, eq_comm]
  exact And.comm

theorem rests_shorter {sep : α} {d xs : List α} (h : d ∈ rests sep xs) : d.length < xs.length := by
  have fits := (mem_rests.mp h).length_le
  rw [List.length_cons] at fits
  omega

theorem rests_decreasing (sep : α) (xs : List α) :
    (rests sep xs).Pairwise fun d e => e.length < d.length := by
  induction xs with
  | nil => exact .nil
  | cons x xs ih =>
    rw [rests]
    split
    · exact .cons (fun _ member => rests_shorter member) ih
    · exact ih

/-- The walk visits no two suffixes of one length. -/
theorem suffixes_decreasing (sep : α) (xs : List α) :
    (suffixes sep xs).Pairwise fun d e => e.length < d.length := by
  apply List.Pairwise.filter
  exact .cons (fun _ member => rests_shorter member) (rests_decreasing sep xs)

theorem rests_eq_nil {sep : α} {xs : List α} (h : sep ∉ xs) : rests sep xs = [] := by
  rw [List.eq_nil_iff_forall_not_mem]
  intro d hd
  exact h ((mem_rests.mp hd).subset List.mem_cons_self)

theorem suffixes_eq_nil {sep : α} {xs : List α} (h : sep ∉ xs) : suffixes sep xs = [] := by
  simp [suffixes, rests_eq_nil h, h]

theorem rests_cut {sep : α} {pre rest : List α} (h : sep ∉ pre) :
    rests sep (pre ++ sep :: rest) = rest :: rests sep rest := by
  induction pre with
  | nil => simp [rests]
  | cons x pre ih =>
    rw [List.mem_cons, not_or] at h
    rw [List.cons_append, rests, if_neg (Ne.symm h.1), ih h.2]

theorem suffixes_cut {sep : α} {pre rest : List α} (h : sep ∉ pre) :
    suffixes sep (pre ++ sep :: rest) = (pre ++ sep :: rest) :: suffixes sep rest := by
  rw [suffixes, rests_cut h, List.filter_cons_of_pos (by simp)]
  rfl

omit [DecidableEq α] in
theorem under_trans {sep : α} {c d xs : List α} (upper : Under sep c d) (lower : Under sep d xs) :
    Under sep c xs := by
  rcases lower with rfl | below
  · exact upper
  · rcases upper with rfl | above
    · exact .inr below
    · exact .inr (above.trans ((List.suffix_cons sep d).trans below))

/-- Below one more label there is that name itself and what was below before. -/
theorem under_cut {sep : α} {c pre d : List α} (h : sep ∉ pre) :
    Under sep c (pre ++ sep :: d) ↔ pre ++ sep :: d = c ∨ Under sep c d := by
  unfold Under
  rw [← mem_rests, rests_cut h, List.mem_cons, mem_rests, @eq_comm _ c d]

theorem split_of_idxOf? {sep : α} {xs : List α} {pos : Nat} (h : xs.idxOf? sep = some pos) :
    ∃ pre rest, xs = pre ++ sep :: rest ∧ sep ∉ pre ∧ pre.length = pos := by
  induction xs generalizing pos with
  | nil => simp at h
  | cons x xs ih =>
    rw [List.idxOf?_cons] at h
    split at h
    · next hx =>
      cases Option.some.inj h
      exact ⟨[], xs, by rw [beq_iff_eq.mp hx]; rfl, List.not_mem_nil, rfl⟩
    · next hx =>
      rw [Option.map_eq_some_iff] at h
      obtain ⟨p, hp, rfl⟩ := h
      obtain ⟨pre, rest, rfl, hpre, rfl⟩ := ih hp
      refine ⟨x :: pre, rest, rfl, ?_, rfl⟩
      rw [List.mem_cons, not_or]
      exact ⟨fun e => hx (beq_iff_eq.mpr e.symm), hpre⟩

/-- The walk is the fold over the suffixes; the exit on an empty rest loses nothing. -/
theorem walk_eq_foldlM (sep : α) (visit : σ → List α → Except ρ σ) (s : σ) (xs : List α) :
    walk sep visit s xs = (suffixes sep xs).foldlM visit s := by
  fun_induction walk sep visit s xs with
  | case1 s xs h =>
    rw [suffixes_eq_nil (List.idxOf?_eq_none_iff.mp h)]
    rfl
  | case2 s xs pos h r hr =>
    obtain ⟨pre, rest, hx, hpre, -⟩ := split_of_idxOf? h
    rw [hx, suffixes_cut hpre, List.foldlM_cons, ← hx, hr]
    rfl
  | case3 s xs pos h s' hs hle =>
    obtain ⟨pre, rest, hx, hpre, hlen⟩ := split_of_idxOf? h
    have empty : rest = [] := by
      rw [hx, List.length_append, List.length_cons, hlen] at hle
      exact List.eq_nil_of_length_eq_zero (by omega)
    rw [hx, suffixes_cut hpre, List.foldlM_cons, ← hx, hs, empty]
    rfl
  | case4 s xs pos h s' hs hlt ih =>
    obtain ⟨pre, rest, hx, hpre, hlen⟩ := split_of_idxOf? h
    have cut : xs.drop (pos + 1) = rest := by
      rw [hx, ← hlen, List.drop_append]
      simp
    rw [ih, cut, hx, suffixes_cut hpre, List.foldlM_cons, ← hx, hs]
    rfl

theorem fold_eq_foldl (sep : α) (visit : σ → List α → σ) (s : σ) (xs : List α) :
    fold sep visit s xs = (suffixes sep xs).foldl visit s := by
  have visited := walk_eq_foldlM sep (fun s ys => (.ok (visit s ys) : Except PEmpty σ)) s xs
  have pure_ : (suffixes sep xs).foldlM (fun s ys => (.ok (visit s ys) : Except PEmpty σ)) s =
      .ok ((suffixes sep xs).foldl visit s) := List.foldlM_pure
  rw [fold, visited, pure_]

theorem search_eq_findSome? (sep : α) (visit : List α → Option ρ) (xs : List α) :
    search sep visit xs = (suffixes sep xs).findSome? visit := by
  rw [search, walk_eq_foldlM]
  induction suffixes sep xs with
  | nil => rfl
  | cons ys yss ih =>
    rw [List.foldlM_cons, List.findSome?_cons]
    cases visit ys with
    | none => exact ih
    | some r => rfl

/-- A loop that returns true at the first hit looks for a hit below the separators. -/
theorem search_flag_iff (sep : α) (hit : List α → Bool) (xs : List α) :
    (search sep (fun d => if hit d then some true else none) xs).getD false = true ↔
      ∃ d, sep ∈ d ∧ Under sep d xs ∧ hit d = true := by
  have flag (yss : List (List α)) :
      (yss.findSome? fun d => if hit d then some true else none).getD false = yss.any hit := by
    induction yss with
    | nil => rfl
    | cons ys yss ih =>
      rw [List.findSome?_cons, List.any_cons]
      cases h : hit ys
      · exact ih
      · rfl
  rw [search_eq_findSome?, flag, List.any_eq_true]
  simp only [mem_suffixes, and_assoc]

end SuffixWalk
