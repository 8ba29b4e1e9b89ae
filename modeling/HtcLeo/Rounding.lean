import Mathlib.Algebra.Order.Floor.Ring
import Mathlib.Data.Rat.Floor
import Mathlib.Tactic.Linarith
import Mathlib.Tactic.NormNum

/-!
# Rounded arithmetic

A correctly rounded operation gives the exact result and rounds it. For
error bounds it is enough to know three things about the rounding
(`Precision.Rounds`): it keeps the order, it leaves whole numbers alone up
to a bound, and it moves a number that does not overflow by at most a
fraction `unit` of it and, near zero, by `least`.

The rules say how an error grows by one rounding (`Rounds.near`), and when
a number can still be cut off to the right whole number after it
(`Rounds.floor_eq`).
-/

namespace HtcLeo

structure Precision where
  unit : ℚ
  least : ℚ
  huge : ℚ
  whole : ℤ
  unit_nonneg : 0 ≤ unit
  least_nonneg : 0 ≤ least

/-- The double format, rounding to nearest: 53 bits, and denormals down to `2 ^ -1074`. -/
def binary64 : Precision where
  unit := 1 / 2 ^ 53
  least := 1 / 2 ^ 1075
  huge := 2 ^ 1023
  whole := 2 ^ 53
  unit_nonneg := by norm_num
  least_nonneg := by positivity

namespace Precision

variable {p : Precision} {rnd : ℚ → ℚ}

structure Rounds (p : Precision) (rnd : ℚ → ℚ) : Prop where
  mono : Monotone rnd
  whole_eq : ∀ n : ℤ, |n| ≤ p.whole → rnd n = n
  error : ∀ x, |x| ≤ p.huge → |rnd x - x| ≤ p.unit * |x| + p.least

/-- How far a number of size `b` is moved. -/
def slack (p : Precision) (b : ℚ) : ℚ := p.unit * b + p.least

/-- No rounding at all. -/
theorem rounds_id : p.Rounds id where
  mono := monotone_id
  whole_eq _ _ := rfl
  error x _ := by
    have hmul := mul_nonneg p.unit_nonneg (abs_nonneg x)
    have hleast := p.least_nonneg
    rw [id, sub_self, abs_zero]
    linarith

theorem Rounds.le_rnd (h : p.Rounds rnd) {n : ℤ} {x : ℚ} (hn : |n| ≤ p.whole) (hx : n ≤ x) :
    n ≤ rnd x := by
  rw [← h.whole_eq n hn]
  exact h.mono hx

/-- One rounding alone. -/
theorem Rounds.near_self (h : p.Rounds rnd) {a b : ℚ} (hb : |a| ≤ b) (hhuge : b ≤ p.huge) :
    |rnd a - a| ≤ p.slack b := by
  have hmul := mul_le_mul_of_nonneg_left hb p.unit_nonneg
  have herror := h.error a (hb.trans hhuge)
  rw [slack]
  linarith

/-- One more rounding adds its slack to the error. -/
theorem Rounds.near (h : p.Rounds rnd) {a x e b : ℚ} (ha : |a - x| ≤ e) (hb : |a| ≤ b)
    (hhuge : b ≤ p.huge) : |rnd a - x| ≤ e + p.slack b := by
  have hround := h.near_self hb hhuge
  calc |rnd a - x| = |(rnd a - a) + (a - x)| := by rw [sub_add_sub_cancel]
    _ ≤ |rnd a - a| + |a - x| := abs_add_le _ _
    _ ≤ e + p.slack b := by linarith

/-- A number further from the next whole number than the slack keeps its floor. -/
theorem Rounds.floor_eq (h : p.Rounds rnd) {n : ℤ} {x b : ℚ} (hn : |n| ≤ p.whole) (hlo : n ≤ x)
    (hb : |x| ≤ b) (hhuge : b ≤ p.huge) (hhi : x + p.slack b < n + 1) : ⌊rnd x⌋ = n := by
  rw [Int.floor_eq_iff]
  refine ⟨h.le_rnd hn hlo, ?_⟩
  have hup := (abs_le.mp (h.near_self hb hhuge)).2
  linarith

end Precision

end HtcLeo
