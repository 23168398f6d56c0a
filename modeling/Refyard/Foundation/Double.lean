import Mathlib.Algebra.GroupWithZero.Nat
import Mathlib.Data.Nat.Size
import Mathlib.Data.Int.Order.Basic

/-! Integers as double-precision numbers: a result is exact up to fifty-three bits, and is rounded
to the nearest number of that many bits above them. -/
namespace Refyard.Double

/-- The nearest multiple of the last place, and of two that are as near the even one. -/
def roundMagnitude (magnitude : Nat) : Nat :=
  let step := 2 ^ (magnitude.size - 53)
  let below := magnitude / step
  let rest := magnitude % step
  if 2 * rest < step ∨ 2 * rest = step ∧ below % 2 = 0 then below * step else (below + 1) * step

def round (value : Int) : Int := value.sign * roundMagnitude value.natAbs

def add (left right : Int) : Int := round (left + right)

def mul (left right : Int) : Int := round (left * right)

def toInt32 (value : Int) : Int := value.bmod (2 ^ 32)

theorem roundMagnitude_exact {magnitude : Nat} (small : magnitude < 2 ^ 53) :
    roundMagnitude magnitude = magnitude := by
  have fits : magnitude.size ≤ 53 := Nat.size_le.mpr small
  unfold roundMagnitude
  rw [Nat.sub_eq_zero_of_le fits]
  simp [Nat.mod_one]

theorem round_exact {value : Int} (small : value.natAbs < 2 ^ 53) : round value = value := by
  rw [round, roundMagnitude_exact small, Int.sign_mul_natAbs]

end Refyard.Double
