import HtcLeo.Doubles
import HtcLeo.NmeaMeaning

/-!
# The numbers of a position

A receiver writes angles as degrees and minutes without a separator, the
time of day as six digits, and heights in metres, all with decimals. The
parser reads them with doubles, takes the degrees apart again with a
division and `floor`, and cuts the milliseconds off. With correctly
rounded doubles an angle comes out within `1e-13` degrees
(`angle_near`), a sum of two heights within `1e-10` metres
(`altitude_near`), and a time exactly or one millisecond early
(`millis_read`).
-/

namespace HtcLeo

/-! ## The doubles of the target -/

theorem binary64_slack (b : ℚ) : binary64.slack b ≤ b / 2 ^ 53 + 1 / 2 ^ 100 := by
  have hleast : (1 : ℚ) / 2 ^ 1075 ≤ 1 / 2 ^ 100 :=
    one_div_le_one_div_of_le (by positivity) (pow_le_pow_right₀ (by norm_num) (by norm_num))
  simp only [Precision.slack, binary64]
  generalize (1 : ℚ) / 2 ^ 1075 = least at hleast ⊢
  linarith

theorem le_huge {b : ℚ} (h : b ≤ 2 ^ 53) : b ≤ binary64.huge :=
  h.trans (pow_le_pow_right₀ (by norm_num) (by norm_num))

theorem le_whole {n : ℤ} (hlo : -2 ^ 53 ≤ n) (hhi : n ≤ 2 ^ 53) : |n| ≤ binary64.whole :=
  abs_le.mpr ⟨hlo, hhi⟩

theorem truncRat_of_nonneg {a : ℚ} (h : 0 ≤ a) : truncRat a = ⌊a⌋ := if_pos h

/-! ## Angles -/

/-- Degrees and minutes, north or east of zero unless `negative`; `width` digits of degrees. -/
structure Angle (width : Nat) where
  degrees : Nat
  minutes : FixedPoint
  negative : Bool
  degrees_le : degrees ≤ 180
  degrees_lt : degrees < 10 ^ width
  minutes_lt : minutes.whole < 60
  width_pos : 0 < width
  places_pos : 0 < minutes.places
  /-- `str2float` converts less than 16 characters. -/
  length_lt : width + 3 + minutes.places < 16

namespace Angle

variable {width : Nat} (a : Angle width)

/-- The angle without its sign. -/
def size : ℚ := a.degrees + a.minutes.value / 60

def value : ℚ := if a.negative then -a.size else a.size

/-- `ddmm.mmmm` -/
def text : List Byte := digits width a.degrees ++ a.minutes.text 2

/-- Degrees and minutes as they stand in the text. -/
def packed : FixedPoint where
  whole := a.degrees * 100 + a.minutes.whole
  places := a.minutes.places
  frac := a.minutes.frac
  frac_lt := a.minutes.frac_lt

theorem length_text : a.text.length = width + 3 + a.minutes.places := by
  rw [text, List.length_append, length_digits, FixedPoint.length_text]
  omega

theorem text_packed : a.text = a.packed.text (width + 2) := by
  have hlt := a.minutes_lt
  rw [text, FixedPoint.text, FixedPoint.text, ← List.append_assoc,
    digits_append width a.degrees (b := 2) (by omega)]
  rfl

theorem packed_value : a.packed.value = a.degrees * 100 + a.minutes.value := by
  rw [FixedPoint.value, FixedPoint.value, packed]
  push_cast
  ring

/-- How large the parts are. -/
theorem bounds : (a.degrees : ℚ) ≤ 180 ∧ (0 : ℚ) ≤ a.degrees ∧ (a.minutes.whole : ℚ) ≤ 59
    ∧ (0 : ℚ) ≤ a.minutes.whole ∧ a.minutes.value < 60 ∧ 0 ≤ a.minutes.value := by
  have hwhole : (a.minutes.whole : ℚ) ≤ 59 := by
    have := a.minutes_lt
    exact_mod_cast (by omega : a.minutes.whole ≤ 59)
  have hfrac := a.minutes.frac_le le_rfl
  have hpow : (0 : ℚ) < 1 / 10 ^ a.minutes.places := by positivity
  refine ⟨by exact_mod_cast a.degrees_le, Nat.cast_nonneg _, hwhole, Nat.cast_nonneg _, ?_,
    a.minutes.value_nonneg⟩
  rw [FixedPoint.value]
  linarith

end Angle

/-! ## The time of day -/

structure TimeOfDay where
  hour : Nat
  minute : Nat
  seconds : FixedPoint
  hour_lt : hour < 24
  minute_lt : minute < 60
  seconds_lt : seconds.whole ≤ 60
  places_le : seconds.places ≤ 9

namespace TimeOfDay

variable (t : TimeOfDay)

/-- `hhmmss.ss` -/
def text : List Byte := digits 2 t.hour ++ (digits 2 t.minute ++ t.seconds.text 2)

/-- The milliseconds behind the seconds. -/
def millis : Nat := t.seconds.frac * 1000 / 10 ^ t.seconds.places

theorem length_text : t.text.length = 7 + t.seconds.places := by
  rw [text, List.length_append, List.length_append, length_digits, length_digits,
    FixedPoint.length_text]
  omega

theorem text_parts : t.text.take 2 = digits 2 t.hour
    ∧ (t.text.drop 2).take 2 = digits 2 t.minute ∧ t.text.drop 4 = t.seconds.text 2 := by
  have hdrop : t.text.drop 2 = digits 2 t.minute ++ t.seconds.text 2 :=
    List.drop_left' (length_digits 2 _)
  refine ⟨List.take_left' (length_digits 2 _), ?_, ?_⟩
  · rw [hdrop]
    exact List.take_left' (length_digits 2 _)
  · rw [show 4 = 2 + 2 from rfl, ← List.drop_drop, hdrop]
    exact List.drop_left' (length_digits 2 _)

/-- What the milliseconds leave of the decimals is no whole one. -/
theorem millis_bounds : (t.millis : ℚ) ≤ 1000 * (t.seconds.frac / 10 ^ t.seconds.places)
    ∧ 1000 * (t.seconds.frac / 10 ^ t.seconds.places : ℚ) ≤ t.millis + 1 - 1 / 10 ^ 9
    ∧ t.millis ≤ 999 := by
  have hpow : (0 : ℚ) < 10 ^ t.seconds.places := by positivity
  have hpos : 0 < 10 ^ t.seconds.places := by positivity
  have hdiv := Nat.div_add_mod (t.seconds.frac * 1000) (10 ^ t.seconds.places)
  have hmod := Nat.mod_lt (t.seconds.frac * 1000) hpos
  rw [← millis] at hdiv
  have hfrac := t.seconds.frac_lt
  have hlt : t.millis < 1000 := by
    rw [millis, Nat.div_lt_iff_lt_mul hpos]
    omega
  have hlo : t.millis * 10 ^ t.seconds.places ≤ t.seconds.frac * 1000 := by
    rw [Nat.mul_comm]
    omega
  have hhi : t.seconds.frac * 1000 + 1 ≤ (t.millis + 1) * 10 ^ t.seconds.places := by
    rw [Nat.add_mul, Nat.mul_comm t.millis]
    omega
  have hlo' : (t.millis * 10 ^ t.seconds.places : ℚ) ≤ t.seconds.frac * 1000 := by
    exact_mod_cast hlo
  have hhi' : (t.seconds.frac * 1000 + 1 : ℚ) ≤ (t.millis + 1) * 10 ^ t.seconds.places := by
    exact_mod_cast hhi
  have hmono : (1 : ℚ) / 10 ^ 9 ≤ 1 / 10 ^ t.seconds.places :=
    one_div_le_one_div_of_le hpow (pow_le_pow_right₀ (by norm_num) t.places_le)
  refine ⟨?_, ?_, by omega⟩
  · rw [← mul_div_assoc, le_div_iff₀ hpow]
    linarith
  · have hstep : 1000 * (t.seconds.frac / 10 ^ t.seconds.places : ℚ) + 1 / 10 ^ t.seconds.places
        ≤ t.millis + 1 := by
      rw [← mul_div_assoc, ← add_div, div_le_iff₀ hpow]
      linarith
    linarith

end TimeOfDay

/-! ## Heights -/

/-- Metres, written with `width` digits before the point. -/
structure Height where
  negative : Bool
  width : Nat
  size : FixedPoint
  whole_lt : size.whole < 10 ^ width
  width_pos : 0 < width
  width_le : width ≤ 5
  length_lt : width + 2 + size.places < 16

namespace Height

variable (x : Height)

def value : ℚ := if x.negative then -x.size.value else x.size.value

def text : List Byte := (if x.negative then [ch '-'] else []) ++ x.size.text x.width

theorem text_ne : x.text ≠ [] := by
  refine List.ne_nil_of_length_pos ?_
  rw [text, List.length_append, FixedPoint.length_text]
  omega

theorem size_le : x.size.value ≤ 100000 := by
  have hwhole : x.size.whole < 100000 :=
    x.whole_lt.trans_le (Nat.pow_le_pow_right (by decide) x.width_le)
  have hwhole' : (x.size.whole : ℚ) + 1 ≤ 100000 := by exact_mod_cast hwhole
  have hfrac := x.size.frac_le le_rfl
  have hpow : (0 : ℚ) < 1 / 10 ^ x.size.places := by positivity
  rw [FixedPoint.value]
  linarith

theorem abs_value_le : |x.value| ≤ 100000 := by
  have hle := x.size_le
  have hnonneg := x.size.value_nonneg
  rw [value]
  cases x.negative with
  | true => simpa [abs_of_nonneg hnonneg] using hle
  | false => simpa [abs_of_nonneg hnonneg] using hle

theorem text_plain {b : Byte} (hb : b ∈ x.text) : IsPlain b := by
  rw [text, List.mem_append] at hb
  rcases hb with hb | hb
  · split at hb
    · obtain rfl := List.mem_singleton.mp hb
      decide
    · cases hb
  · exact x.size.text_plain hb

end Height

section Doubles

variable [CFloat] {rnd : ℚ → ℚ} {value : CFloat.double → Option ℚ}

open CFloat

/-- The cast of a number that is not negative. -/
theorem toInt_floor (hd : Doubles binary64 rnd value) {x : double} {a : ℚ} (hx : value x = some a)
    (h0 : 0 ≤ ⌊a⌋) (hmax : ⌊a⌋ < 2 ^ 31) : toInt x = ⌊a⌋ := by
  have hnonneg : 0 ≤ a := Int.floor_nonneg.mp h0
  have hlt := Int.floor_lt.mp hmax
  push_cast at hlt
  rw [hd.toInt hx (by rwa [abs_of_nonneg hnonneg]), truncRat_of_nonneg hnonneg]

theorem angle_text (hd : Doubles binary64 rnd value) {width : Nat}
    (a : Angle width) : value (str2float (a.text)) = some (rnd a.packed.value) := by
  obtain ⟨hdeg, -, -, -, hmin, -⟩ := a.bounds
  have hdigits := a.degrees_lt
  have hlt := a.minutes_lt
  have hlen := a.length_lt
  have hvalue := a.packed_value
  have hpow : 10 ^ (width + 2) = 10 ^ width * 100 := by rw [pow_add]; norm_num
  rw [a.text_packed]
  refine (str2float_text hd a.packed (by omega) ?_ (by simpa [Angle.packed] using by omega)
    (le_huge ?_)).1
  · change a.degrees * 100 + a.minutes.whole < 10 ^ (width + 2)
    rw [hpow]
    omega
  · rw [hvalue]
    norm_num
    linarith

/-- The whole minutes of the rounded text are those of the text. -/
theorem packed_floor (hd : Doubles binary64 rnd value) {width : Nat}
    (a : Angle width) : ⌊rnd a.packed.value⌋ = a.degrees * 100 + a.minutes.whole := by
  obtain ⟨hdeg, hdeg0, hwhole, hwhole0, hmin, hmin0⟩ := a.bounds
  have hle := a.degrees_le
  have hlt := a.minutes_lt
  have hlen := a.length_lt
  have hpos := a.width_pos
  have hfrac := a.minutes.frac_le (show a.minutes.places ≤ 11 by omega)
  have hfrac0 := a.minutes.frac_nonneg
  have hslack := binary64_slack 18060
  have hvalue := a.packed_value
  refine hd.rounds.floor_eq (b := 18060) (le_whole (by omega) (by omega)) ?_ ?_
    (le_huge (by norm_num)) ?_
  · rw [hvalue, FixedPoint.value]
    push_cast
    linarith
  · rw [hvalue, abs_of_nonneg (by positivity)]
    linarith
  · rw [hvalue, FixedPoint.value]
    push_cast
    norm_num at hslack hfrac ⊢
    linarith

/-- The degrees are read off exactly. -/
theorem angle_degrees (hd : Doubles binary64 rnd value) {width : Nat}
    (a : Angle width) :
    toInt (div (floor (str2float (a.text))) (ofInt 100)) = a.degrees := by
  obtain ⟨hdeg, hdeg0, hwhole, hwhole0, hmin, hmin0⟩ := a.bounds
  have hle := a.degrees_le
  have hfloor := hd.floor (angle_text hd a)
  rw [packed_floor hd a] at hfloor
  have hhundred := hd.ofInt 100 (by norm_num)
  have hslack := binary64_slack 182
  have hquot : |((a.degrees * 100 + a.minutes.whole : ℤ) : ℚ) / (100 : ℤ)| ≤ 182 := by
    push_cast
    rw [abs_of_nonneg (by positivity)]
    linarith
  have hdiv := hd.div hfloor hhundred (by norm_num) (hquot.trans (le_huge (by norm_num)))
  have hlo : ((a.degrees : ℤ) : ℚ) ≤ ((a.degrees * 100 + a.minutes.whole : ℤ) : ℚ) / (100 : ℤ) := by
    push_cast
    linarith
  have hcut : ⌊rnd (((a.degrees * 100 + a.minutes.whole : ℤ) : ℚ) / (100 : ℤ))⌋ = a.degrees := by
    refine hd.rounds.floor_eq (le_whole (by omega) (by omega)) hlo hquot (le_huge (by norm_num)) ?_
    push_cast
    norm_num at hslack ⊢
    linarith
  rw [toInt_floor hd hdiv (by omega) (by omega), hcut]

/-- **An angle** is read with an error of less than a tenth of a picodegree. -/
theorem angle_near (hd : Doubles binary64 rnd value) {width : Nat}
    (a : Angle width) : Near value (GpsView.angle (a.text)) a.size (1 / 10 ^ 13) := by
  obtain ⟨hdeg, hdeg0, hwhole, hwhole0, hmin, hmin0⟩ := a.bounds
  have hle := a.degrees_le
  have hslack := binary64_slack
  have hvalue := a.packed_value
  have hval : Near value (str2float (a.text)) a.packed.value (binary64.slack 18060) := by
    refine ⟨_, angle_text hd a, hd.rounds.near_self ?_ (le_huge (by norm_num))⟩
    rw [hvalue, abs_of_nonneg (by positivity)]
    linarith
  have hof : value (ofInt (a.degrees : ℤ)) = some ((a.degrees : ℤ) : ℚ) := by
    refine hd.ofInt _ ?_
    rw [abs_le]
    omega
  have hhundred : value (literal 100 0) = some ((100 : ℤ) : ℚ) :=
    hd.value_literal (le_whole (by norm_num) (by norm_num)) (le_huge (by norm_num))
  have hsixty : value (literal 60 0) = some ((60 : ℤ) : ℚ) :=
    hd.value_literal (le_whole (by norm_num) (by norm_num)) (le_huge (by norm_num))
  have hmul : value (mul (ofInt (a.degrees : ℤ)) (literal 100 0))
      = some ((a.degrees * 100 : ℤ) : ℚ) := by
    refine hd.value_mul hof hhundred (le_whole (by omega) (by omega)) (le_huge ?_)
    push_cast
    rw [abs_of_nonneg (by positivity)]
    norm_num
    linarith
  have hrest : a.packed.value - ((a.degrees * 100 : ℤ) : ℚ) = a.minutes.value := by
    rw [hvalue]
    push_cast
    ring
  have htext := hslack 18060
  have hminutes := hslack 61
  have hquot := hslack 2
  have hsum := hslack 182
  norm_num at htext hminutes hquot hsum
  have hsub := hd.near_sub hval (near_of_value hmul) (b := 61)
    (by rw [hrest, abs_of_nonneg hmin0]; linarith) (le_huge (by norm_num))
  rw [hrest] at hsub
  have hdiv := hd.near_div hsub hsixty (by norm_num) (b := 2)
    (by rw [abs_of_nonneg hmin0]; norm_num; linarith) (le_huge (by norm_num))
  have hadd := hd.near_add (near_of_value hof) hdiv (b := 182)
    (by
      push_cast
      rw [abs_of_nonneg (by positivity)]
      linarith) (le_huge (by norm_num))
  have hangle : GpsView.angle (a.text) = add (ofInt a.degrees)
      (div (sub (str2float (a.text)) (mul (ofInt a.degrees) (literal 100 0)))
        (literal 60 0)) := by
    rw [GpsView.angle]
    simp only [angle_degrees hd a]
  rw [hangle, Angle.size]
  exact hadd.mono (by push_cast; norm_num; linarith)

/-- One letter tells the hemisphere. -/
theorem signedAngle_near (hd : Doubles binary64 rnd value) {width : Nat} (a : Angle width)
    {positive negative : Byte} (hne : positive ≠ negative) :
    Near value (GpsView.signedAngle a.text [if a.negative then negative else positive] negative)
      a.value (1 / 10 ^ 13) := by
  have hnear := angle_near hd a
  rw [GpsView.signedAngle, Angle.value]
  cases a.negative with
  | true => simpa using hd.near_neg hnear
  | false => simpa [hne] using hnear

theorem seconds_text (hd : Doubles binary64 rnd value) (t : TimeOfDay) :
    value (str2float (t.seconds.text 2)) = some (rnd t.seconds.value)
      ∧ ⌊rnd t.seconds.value⌋ = t.seconds.whole
      ∧ |rnd t.seconds.value - t.seconds.value| ≤ binary64.slack 61 := by
  have hplaces := t.places_le
  have hle := t.seconds_lt
  have hwhole : (t.seconds.whole : ℚ) ≤ 60 := by exact_mod_cast hle
  have hwhole0 : (0 : ℚ) ≤ t.seconds.whole := Nat.cast_nonneg _
  have hfrac := t.seconds.frac_le hplaces
  have hfrac0 := t.seconds.frac_nonneg
  have hsize : |t.seconds.value| ≤ 61 := by
    rw [abs_of_nonneg t.seconds.value_nonneg, FixedPoint.value]
    norm_num at hfrac
    linarith
  have hslack := binary64_slack 61
  refine ⟨(str2float_text hd t.seconds (by decide) (by omega) (by omega) ?_).1, ?_,
    hd.rounds.near_self hsize (le_huge (by norm_num))⟩
  · exact (le_abs_self _).trans (hsize.trans (le_huge (by norm_num)))
  · refine hd.rounds.floor_eq (le_whole (by omega) (by omega)) ?_ hsize (le_huge (by norm_num)) ?_
    · rw [FixedPoint.value]
      push_cast
      linarith
    · rw [FixedPoint.value]
      push_cast
      norm_num at hslack hfrac
      linarith

/-- Rounded and multiplied, the seconds keep their whole part and all milliseconds but one. -/
theorem thousandfold_bounds (hd : Doubles binary64 rnd value) (t : TimeOfDay) :
    ∃ product, value (mul (str2float (t.seconds.text 2)) (ofInt 1000)) = some product
      ∧ (t.seconds.whole * 1000 : ℤ) ≤ ⌊product⌋
      ∧ (t.seconds.whole * 1000 + t.millis - 1 : ℤ) ≤ ⌊product⌋
      ∧ ⌊product⌋ < (t.seconds.whole * 1000 + t.millis + 1 : ℤ) := by
  obtain ⟨htext, hfloor, hnear⟩ := seconds_text hd t
  obtain ⟨hlo, hhi, -⟩ := t.millis_bounds
  have hle := t.seconds_lt
  have hwhole : (t.seconds.whole : ℚ) ≤ 60 := by exact_mod_cast hle
  have hwhole0 : (0 : ℚ) ≤ t.seconds.whole := Nat.cast_nonneg _
  obtain ⟨hge, hlt⟩ := Int.floor_eq_iff.mp hfloor
  push_cast at hge hlt
  have hvalue : t.seconds.value
      = t.seconds.whole + t.seconds.frac / 10 ^ t.seconds.places := rfl
  have hsize : |rnd t.seconds.value * ((1000 : ℤ) : ℚ)| ≤ 61000 := by
    push_cast
    rw [abs_of_nonneg (by linarith)]
    linarith
  have hmul := hd.mul htext (hd.ofInt 1000 (by norm_num)) (hsize.trans (le_huge (by norm_num)))
  have hthousand : |rnd t.seconds.value * ((1000 : ℤ) : ℚ) - t.seconds.value * 1000|
      ≤ binary64.slack 61 * 1000 := by
    push_cast
    rw [← sub_mul, abs_mul, abs_of_pos (by norm_num : (0 : ℚ) < 1000)]
    linarith
  have hstart : ((t.seconds.whole * 1000 : ℤ) : ℚ)
      ≤ rnd (rnd t.seconds.value * ((1000 : ℤ) : ℚ)) := by
    refine hd.rounds.le_rnd (le_whole (by omega) (by omega)) ?_
    push_cast
    linarith
  have hslack := binary64_slack 61
  have hslack' := binary64_slack 61000
  norm_num at hslack hslack' hhi
  obtain ⟨hbelow, habove⟩ :=
    abs_le.mp (hd.rounds.near hthousand hsize (le_huge (by norm_num)))
  refine ⟨_, hmul, Int.le_floor.mpr hstart, ?_, ?_⟩
  · rw [Int.le_floor]
    push_cast at hbelow ⊢
    linarith
  · rw [Int.floor_lt]
    push_cast at habove ⊢
    linarith

/-- The milliseconds are right, or one too few. -/
theorem millis_read (hd : Doubles binary64 rnd value) (t : TimeOfDay) :
    toInt (str2float (t.seconds.text 2)) = t.seconds.whole
      ∧ ∃ m : ℤ, (toInt (mul (str2float (t.seconds.text 2)) (ofInt 1000))).tmod 1000 = m
        ∧ 0 ≤ m ∧ m ≤ t.millis ∧ t.millis ≤ m + 1 := by
  obtain ⟨htext, hfloor, -⟩ := seconds_text hd t
  obtain ⟨product, hmul, hstart, hclose, hlast⟩ := thousandfold_bounds hd t
  obtain ⟨-, -, hmillis⟩ := t.millis_bounds
  have hle := t.seconds_lt
  constructor
  · rw [toInt_floor hd htext (by omega) (by omega), hfloor]
  · rw [toInt_floor hd hmul (by omega) (by omega), Int.tmod_eq_emod_of_nonneg (by omega)]
    refine ⟨_, rfl, ?_, ?_, ?_⟩
    · omega
    · omega
    · omega

theorem height_near (hd : Doubles binary64 rnd value) (x : Height) :
    Near value (str2float x.text) x.value (binary64.slack 100000) := by
  have hsize : |x.size.value| ≤ 100000 := by
    rw [abs_of_nonneg x.size.value_nonneg]
    exact x.size_le
  have hlen := x.length_lt
  obtain ⟨hplain, hminus⟩ := str2float_text hd x.size x.width_pos x.whole_lt (by omega)
    (x.size_le.trans (le_huge (by norm_num)))
  have hnear := hd.rounds.near_self hsize (le_huge (by norm_num))
  rw [Height.text, Height.value]
  cases x.negative with
  | true =>
      refine ⟨_, hminus hlen, ?_⟩
      rwa [if_pos rfl, neg_sub_neg, abs_sub_comm]
  | false => exact ⟨_, hplain, hnear⟩

/-- The altitude over the ellipsoid. -/
theorem altitude_near (hd : Doubles binary64 rnd value) (x y : Height) :
    Near value (add (str2float x.text) (str2float y.text)) (x.value + y.value) (1 / 10 ^ 10) := by
  have hx := abs_le.mp x.abs_value_le
  have hy := abs_le.mp y.abs_value_le
  have hslack := binary64_slack 100000
  have hslack' := binary64_slack 200001
  norm_num at hslack hslack'
  have hsize : |x.value + y.value| + (binary64.slack 100000 + binary64.slack 100000) ≤ 200001 := by
    have hsum : |x.value + y.value| ≤ 200000 := by
      rw [abs_le]
      constructor
      · linarith
      · linarith
    linarith
  refine (hd.near_add (height_near hd x) (height_near hd y) hsize (le_huge (by norm_num))).mono ?_
  norm_num
  linarith

end Doubles

end HtcLeo
