import Mathlib.Algebra.Group.Int.Defs
import Mathlib.Algebra.Group.Nat.Defs

/-! The machine integers of the code. -/
namespace Seaturtle

/-- The value of an `int` after arithmetic that wraps around. -/
def toInt32 (n : Int) : Int := n.bmod (2 ^ 32)

theorem toInt32_of_nat {n : Nat} (small : n < 2 ^ 31) : toInt32 n = n := by
  unfold toInt32
  rw [Int.bmod_eq_of_le]
  all_goals omega

theorem toInt32_of_range {n : Int} (lower : -(2 ^ 31) ≤ n) (upper : n < 2 ^ 31) :
    toInt32 n = n := by
  unfold toInt32
  rw [Int.bmod_eq_of_le]
  all_goals omega

theorem toInt32_bounds (n : Int) : -(2 ^ 31) ≤ toInt32 n ∧ toInt32 n < 2 ^ 31 := by
  have lower : -((2 ^ 32 : Nat) / 2 : Int) ≤ toInt32 n := Int.le_bmod (by decide)
  have upper : toInt32 n < ((2 ^ 32 : Nat) + 1) / 2 := Int.bmod_lt (by decide)
  omega

/-- `INT_MAX`. -/
def intMax : Int := 2 ^ 31 - 1

inductive SizeT where
  | bits32
  | bits64
  deriving DecidableEq

def SizeT.range : SizeT → Nat
  | bits32 => 2 ^ 32
  | bits64 => 2 ^ 64

/-- The value of an `int` that is assigned to a `size_t`. -/
def SizeT.ofInt (w : SizeT) (n : Int) : Nat := (n % w.range).toNat

theorem SizeT.ofInt_nat {w : SizeT} {n : Nat} (small : n < 2 ^ 32) : w.ofInt n = n := by
  unfold SizeT.ofInt
  cases w with
  | bits32 =>
    rw [SizeT.range]
    omega
  | bits64 =>
    rw [SizeT.range]
    omega

theorem SizeT.ofInt_negative {w : SizeT} {n : Int} (negative : n < 0) (int : -(2 ^ 31) ≤ n) :
    2 ^ 31 ≤ w.ofInt n := by
  unfold SizeT.ofInt
  cases w with
  | bits32 =>
    rw [SizeT.range]
    omega
  | bits64 =>
    rw [SizeT.range]
    omega

end Seaturtle
