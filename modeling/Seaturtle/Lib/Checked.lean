import Mathlib.Data.List.Basic

/-! Computations that may fail: what their success says of their parts. -/
namespace Checked

universe u v
variable {α β : Type v} {ε : Type u}

theorem bind_eq_ok {x : Except ε α} {f : α → Except ε β} {b : β} :
    (x >>= f) = .ok b ↔ ∃ a, x = .ok a ∧ f a = .ok b := by
  cases x with
  | error e =>
    constructor
    · intro h; cases h
    · rintro ⟨a, ha, _⟩; cases ha
  | ok a =>
    constructor
    · intro h; exact ⟨a, rfl, h⟩
    · rintro ⟨a', ha, h⟩; cases ha; exact h

theorem map_eq_ok {x : Except ε α} {f : α → β} {b : β} :
    f <$> x = .ok b ↔ ∃ a, x = .ok a ∧ f a = b := by
  cases x with
  | error e =>
    constructor
    · intro h; cases h
    · rintro ⟨a, ha, _⟩; cases ha
  | ok a =>
    constructor
    · intro h; cases h; exact ⟨a, rfl, rfl⟩
    · rintro ⟨a', ha, h⟩; cases ha; exact congrArg Except.ok h

theorem foldlM_induct_from {f : β → α → Except ε β} (P : List α → β → Prop)
    (keep : ∀ seen a s s', P seen s → f s a = .ok s' → P (seen ++ [a]) s')
    (seen xs : List α) {b c : β} (start : P seen b) (done : xs.foldlM f b = .ok c) :
    P (seen ++ xs) c := by
  induction xs generalizing seen b with
  | nil =>
    cases done
    rw [List.append_nil]
    exact start
  | cons x xs ih =>
    rw [List.foldlM_cons, bind_eq_ok] at done
    obtain ⟨s, hs, rest⟩ := done
    have h := ih (seen ++ [x]) (keep seen x b s start hs) rest
    rwa [List.append_assoc, List.singleton_append] at h

/-- A fold that succeeds has gone through every element: what each step extends to
the elements seen so far holds of the whole list. -/
theorem foldlM_induct {f : β → α → Except ε β} (P : List α → β → Prop)
    (keep : ∀ seen a s s', P seen s → f s a = .ok s' → P (seen ++ [a]) s')
    (xs : List α) {b c : β} (start : P [] b) (done : xs.foldlM f b = .ok c) : P xs c :=
  foldlM_induct_from P keep [] xs start done

/-- A fold that succeeds has taken a step that succeeded at every element. -/
theorem foldlM_each {f : β → α → Except ε β} {xs : List α} {b c : β}
    (done : xs.foldlM f b = .ok c) : ∀ a ∈ xs, ∃ s s', f s a = .ok s' := by
  apply foldlM_induct (fun seen _ => ∀ a ∈ seen, ∃ s s', f s a = .ok s') _ xs nofun done
  intro seen a s s' before taken a' member
  rcases List.mem_append.mp member with old | new
  · exact before a' old
  · cases List.mem_singleton.mp new
    exact ⟨s, s', taken⟩

theorem foldlM_total {f : β → α → Except ε β} {xs : List α}
    (steps : ∀ s, ∀ a ∈ xs, ∃ s', f s a = .ok s') (b : β) : ∃ c, xs.foldlM f b = .ok c := by
  induction xs generalizing b with
  | nil => exact ⟨b, rfl⟩
  | cons x xs ih =>
    obtain ⟨s, hs⟩ := steps b x List.mem_cons_self
    obtain ⟨c, hc⟩ := ih (fun s a ha => steps s a (List.mem_cons_of_mem x ha)) s
    exact ⟨c, by rw [List.foldlM_cons, hs]; exact hc⟩

/-- Two folds over one list, where each step of the first is matched by the second. -/
theorem foldlM_matched {γ : Type v} {f : β → α → Except ε β} {g : γ → α → Except ε γ}
    (R : β → γ → Prop)
    (matched : ∀ b c a b', R b c → f b a = .ok b' → ∃ c', g c a = .ok c' ∧ R b' c')
    {xs : List α} {b b' : β} {c : γ} (start : R b c) (done : xs.foldlM f b = .ok b') :
    ∃ c', xs.foldlM g c = .ok c' ∧ R b' c' := by
  induction xs generalizing b c with
  | nil =>
    cases done
    exact ⟨c, rfl, start⟩
  | cons x xs ih =>
    rw [List.foldlM_cons, bind_eq_ok] at done
    obtain ⟨s, hs, rest⟩ := done
    obtain ⟨t, ht, related⟩ := matched b c x s start hs
    obtain ⟨c', hc, last⟩ := ih related rest
    exact ⟨c', by rw [List.foldlM_cons, ht]; exact hc, last⟩

theorem mapM_total {p : α → Bool} (f : α → β) (fail : α → ε) {xs : List α}
    (all : ∀ a ∈ xs, p a = true) :
    (xs.mapM fun a => if p a then .ok (f a) else .error (fail a)) = Except.ok (xs.map f) := by
  induction xs with
  | nil => rfl
  | cons x xs ih =>
    rw [List.mapM_cons, all x List.mem_cons_self, ih fun a ha => all a (List.mem_cons_of_mem x ha)]
    rfl

theorem mapM_each {p : α → Bool} {f : α → β} {fail : α → ε} {xs : List α} {ys : List β}
    (done : (xs.mapM fun a => if p a then .ok (f a) else .error (fail a)) = Except.ok ys) :
    ∀ a ∈ xs, p a = true := by
  induction xs generalizing ys with
  | nil => exact nofun
  | cons x xs ih =>
    rw [List.mapM_cons] at done
    obtain ⟨y, hy, rest⟩ := bind_eq_ok.mp done
    obtain ⟨ys', hys, _⟩ := bind_eq_ok.mp rest
    split at hy
    · next passes => exact List.forall_mem_cons.mpr ⟨passes, ih hys⟩
    · cases hy

theorem mapM_checked {p : α → Bool} {f : α → β} {fail : α → ε} {xs : List α} {ys : List β}
    (done : (xs.mapM fun a => if p a then .ok (f a) else .error (fail a)) = Except.ok ys) :
    ys = xs.map f := by
  induction xs generalizing ys with
  | nil => cases done; rfl
  | cons x xs ih =>
    rw [List.mapM_cons] at done
    obtain ⟨y, hy, rest⟩ := bind_eq_ok.mp done
    obtain ⟨ys', hys, last⟩ := bind_eq_ok.mp rest
    cases last
    split at hy
    · cases hy
      rw [ih hys, List.map_cons]
    · cases hy

end Checked
