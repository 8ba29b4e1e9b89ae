import Mathlib.Data.Int.Basic
import Mathlib.Tactic.Ring

/-!
# 32-bit C integers

`int` values are integers together with the conversion that the target
applies to an out-of-range result: reduction modulo `2 ^ 32` into the
signed range. Signed overflow is undefined in C; on the target it wraps,
and the model says so at every operation that can overflow. Where a result
is about the absence of overflow, `int32` gives no value instead.
-/

namespace HtcLeo

/-- `EINVAL` of the target. -/
def einval : Int := 22

/-- The signed 32-bit value with the same low 32 bits as `x`. -/
def wrap32 (x : Int) : Int := x.bmod (2 ^ 32)

theorem wrap32_eq {x : Int} (hlo : -2 ^ 31 ≤ x) (hhi : x < 2 ^ 31) : wrap32 x = x := by
  rw [wrap32, Int.bmod_eq_of_le] <;> omega

theorem wrap32_lo (x : Int) : -2 ^ 31 ≤ wrap32 x := by
  have := Int.le_bmod (x := x) (m := 2 ^ 32) (by decide)
  rw [wrap32]
  omega

theorem wrap32_hi (x : Int) : wrap32 x < 2 ^ 31 := by
  have := Int.bmod_lt (x := x) (m := 2 ^ 32) (by decide)
  rw [wrap32]
  omega

/-- The result of an `int` operation, where it does not overflow. -/
def int32 (x : Int) : Option Int := if -2 ^ 31 ≤ x ∧ x < 2 ^ 31 then some x else none

theorem int32_eq {x : Int} (hlo : -2 ^ 31 ≤ x) (hhi : x < 2 ^ 31) : int32 x = some x :=
  if_pos ⟨hlo, hhi⟩

/-- Wrapping changes a value by a multiple of `2 ^ 32` only. -/
theorem wrap32_emod (x : Int) : wrap32 x % 2 ^ 32 = x % 2 ^ 32 := by
  rw [wrap32]
  exact Int.bmod_emod

/-- A multiple of four stays one. -/
theorem wrap32_mul_four (x : Int) : wrap32 (x * 4) % 4 = 0 := by
  have h := wrap32_emod (x * 4)
  omega

end HtcLeo
