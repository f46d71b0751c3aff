import Mathlib.Data.List.Basic

/-! A receiver that follows a sender through a channel that keeps the order of the
messages. A message may tell something of the sender at the moment it was sent. -/
namespace Lag

universe u v
variable {σ : Type u} {μ : Type v}

/-- The messages in flight take the receiver to the state of the sender, and what each of
them tells is so of the receiver when it arrives. -/
def Behind (apply : σ → μ → σ) (tells : μ → σ → Prop) (receiver : σ) : List μ → σ → Prop
  | [], sender => receiver = sender
  | m :: ms, sender => tells m receiver ∧ Behind apply tells (apply receiver m) ms sender

variable {apply : σ → μ → σ} {tells : μ → σ → Prop} {receiver sender : σ} {m : μ} {ms : List μ}

theorem behind_send (h : Behind apply tells receiver ms sender) (holds : tells m sender) :
    Behind apply tells receiver (ms ++ [m]) (apply sender m) := by
  induction ms generalizing receiver with
  | nil =>
    subst h
    exact ⟨holds, rfl⟩
  | cons first ms ih => exact ⟨h.1, ih h.2⟩

end Lag
