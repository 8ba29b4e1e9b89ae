import HtcLeo.DecimalFloat
import HtcLeo.Rounding
import Mathlib.Data.List.TakeWhile

/-!
# Doubles

What the C library and the processor promise of `double` (`Doubles`): each
operation gives the rounded exact result unless that is too large,
`strtod` rounds the number that a decimal text stands for, and `floor`,
the sign and the conversions between `int` and `double` are exact. A
double without a value is an infinity or no number.

`Near` says that a double is a number up to an error, and there is a rule
for each operation. Exact arithmetic keeps the laws (`doubles_exact`), so
no law contradicts another. The second half is about texts: the decimal digits of
a number, and the doubles that `str2float` makes of them.
-/

namespace HtcLeo

/-! ## Arithmetic -/

section Arithmetic

variable [CFloat]

open CFloat

structure Doubles (p : Precision) (rnd : ℚ → ℚ) (value : double → Option ℚ) : Prop where
  rounds : p.Rounds rnd
  strtod : ∀ w f : List Byte, w ≠ [] → (∀ b ∈ w, IsDigit b) → (∀ b ∈ f, IsDigit b) →
    (decValue 0 w + decValue 0 f / 10 ^ f.length : ℚ) ≤ p.huge →
    value (CFloat.strtod (w ++ ch '.' :: f))
        = some (rnd (decValue 0 w + decValue 0 f / 10 ^ f.length))
      ∧ value (CFloat.strtod (ch '-' :: (w ++ ch '.' :: f)))
        = some (-rnd (decValue 0 w + decValue 0 f / 10 ^ f.length))
  literal : ∀ (n : ℤ) (k : ℕ), |(n / 10 ^ k : ℚ)| ≤ p.huge →
    value (literal n k) = some (rnd (n / 10 ^ k))
  ofInt : ∀ n : ℤ, |n| ≤ 2 ^ 31 → value (ofInt n) = some (n : ℚ)
  neg : ∀ {x a}, value x = some a → value (neg x) = some (-a)
  add : ∀ {x y a b}, value x = some a → value y = some b → |a + b| ≤ p.huge →
    value (add x y) = some (rnd (a + b))
  sub : ∀ {x y a b}, value x = some a → value y = some b → |a - b| ≤ p.huge →
    value (sub x y) = some (rnd (a - b))
  mul : ∀ {x y a b}, value x = some a → value y = some b → |a * b| ≤ p.huge →
    value (mul x y) = some (rnd (a * b))
  div : ∀ {x y a b}, value x = some a → value y = some b → b ≠ 0 → |a / b| ≤ p.huge →
    value (div x y) = some (rnd (a / b))
  floor : ∀ {x a}, value x = some a → value (floor x) = some (⌊a⌋ : ℚ)
  toInt : ∀ {x a}, value x = some a → |a| < 2 ^ 31 → toInt x = truncRat a

/-- A double that is `t` up to `e`. -/
def Near (value : double → Option ℚ) (x : double) (t e : ℚ) : Prop :=
  ∃ a, value x = some a ∧ |a - t| ≤ e

theorem Near.mono {value : double → Option ℚ} {x : double} {t e e' : ℚ} (h : Near value x t e)
    (he : e ≤ e') : Near value x t e' := by
  obtain ⟨a, ha, herror⟩ := h
  exact ⟨a, ha, herror.trans he⟩

/-- A double that has its number exactly. -/
theorem near_of_value {value : double → Option ℚ} {x : double} {t : ℚ} (h : value x = some t) :
    Near value x t 0 :=
  ⟨t, h, by simp⟩

namespace Doubles

variable {p : Precision} {rnd : ℚ → ℚ} {value : double → Option ℚ} {x y : double} {s t d e b : ℚ}

theorem near_neg (hd : Doubles p rnd value) (hx : Near value x s d) :
    Near value (CFloat.neg x) (-s) d := by
  obtain ⟨a, ha, herror⟩ := hx
  refine ⟨-a, hd.neg ha, ?_⟩
  rwa [neg_sub_neg, abs_sub_comm]

theorem near_add (hd : Doubles p rnd value) (hx : Near value x s d) (hy : Near value y t e)
    (hb : |s + t| + (d + e) ≤ b) (hhuge : b ≤ p.huge) :
    Near value (CFloat.add x y) (s + t) (d + e + p.slack b) := by
  obtain ⟨a, ha, hda⟩ := hx
  obtain ⟨c, hc, hec⟩ := hy
  have herror : |a + c - (s + t)| ≤ d + e := by
    rw [add_sub_add_comm]
    exact (abs_add_le _ _).trans (add_le_add hda hec)
  have hsize : |a + c| ≤ b := by
    have := abs_sub_abs_le_abs_sub (a + c) (s + t)
    linarith
  exact ⟨_, hd.add ha hc (hsize.trans hhuge), hd.rounds.near herror hsize hhuge⟩

theorem near_sub (hd : Doubles p rnd value) (hx : Near value x s d) (hy : Near value y t e)
    (hb : |s - t| + (d + e) ≤ b) (hhuge : b ≤ p.huge) :
    Near value (CFloat.sub x y) (s - t) (d + e + p.slack b) := by
  obtain ⟨a, ha, hda⟩ := hx
  obtain ⟨c, hc, hec⟩ := hy
  have herror : |a - c - (s - t)| ≤ d + e := by
    rw [sub_sub_sub_comm]
    exact (abs_sub _ _).trans (add_le_add hda hec)
  have hsize : |a - c| ≤ b := by
    have := abs_sub_abs_le_abs_sub (a - c) (s - t)
    linarith
  exact ⟨_, hd.sub ha hc (hsize.trans hhuge), hd.rounds.near herror hsize hhuge⟩

/-- Division by a number that is there exactly. -/
theorem near_div (hd : Doubles p rnd value) (hx : Near value x s d) {c : ℚ}
    (hy : value y = some c) (hc : 0 < c) (hb : (|s| + d) / c ≤ b) (hhuge : b ≤ p.huge) :
    Near value (CFloat.div x y) (s / c) (d / c + p.slack b) := by
  obtain ⟨a, ha, hda⟩ := hx
  have herror : |a / c - s / c| ≤ d / c := by
    rw [← sub_div, abs_div, abs_of_pos hc]
    exact div_le_div_of_nonneg_right hda hc.le
  have hsize : |a / c| ≤ b := by
    have htri := abs_sub_abs_le_abs_sub a s
    rw [abs_div, abs_of_pos hc]
    exact (div_le_div_of_nonneg_right (by linarith) hc.le).trans hb
  exact ⟨_, hd.div ha hy hc.ne' (hsize.trans hhuge), hd.rounds.near herror hsize hhuge⟩

/-- A product of whole numbers is exact. -/
theorem value_mul (hd : Doubles p rnd value) {m n : ℤ} (hx : value x = some (m : ℚ))
    (hy : value y = some (n : ℚ)) (hmn : |m * n| ≤ p.whole) (hhuge : |(m * n : ℚ)| ≤ p.huge) :
    value (CFloat.mul x y) = some ((m * n : ℤ) : ℚ) := by
  rw [hd.mul hx hy hhuge, ← Int.cast_mul, hd.rounds.whole_eq _ hmn]

/-- A whole constant of the source. -/
theorem value_literal (hd : Doubles p rnd value) {n : ℤ} (hn : |n| ≤ p.whole)
    (hhuge : |(n : ℚ)| ≤ p.huge) : value (CFloat.literal n 0) = some (n : ℚ) := by
  have h := hd.literal n 0 (by simpa using hhuge)
  rwa [pow_zero, div_one, hd.rounds.whole_eq n hn] at h

end Doubles

end Arithmetic

/-! ## Exact arithmetic -/

theorem parseDigits_text {w f : List Byte} (hw : ∀ b ∈ w, IsDigit b) (hf : ∀ b ∈ f, IsDigit b) :
    parseDigits (w ++ ch '.' :: f) = decValue 0 w + decValue 0 f / 10 ^ f.length := by
  have htake : (w ++ ch '.' :: f).takeWhile (fun b => IsDigit b) = w := by
    rw [List.takeWhile_append_of_pos (by simpa using hw), List.takeWhile_cons_of_neg (by decide),
      List.append_nil]
  have hdrop : (w ++ ch '.' :: f).dropWhile (fun b => IsDigit b) = ch '.' :: f := by
    rw [List.dropWhile_append_of_pos (by simpa using hw), List.dropWhile_cons_of_neg (by decide)]
  have hfrac : f.takeWhile (fun b => IsDigit b) = f := by
    rw [List.takeWhile_eq_self_iff]
    simpa using hf
  rw [parseDigits, htake, hdrop]
  simp only [List.head?_cons, List.tail_cons, hfrac, if_true]

theorem parseDecimal_text {w f : List Byte} (hne : w ≠ []) (hw : ∀ b ∈ w, IsDigit b)
    (hf : ∀ b ∈ f, IsDigit b) :
    parseDecimal (w ++ ch '.' :: f) = decValue 0 w + decValue 0 f / 10 ^ f.length
      ∧ parseDecimal (ch '-' :: (w ++ ch '.' :: f))
        = -(decValue 0 w + decValue 0 f / 10 ^ f.length) := by
  have hdigits := parseDigits_text hw hf
  refine ⟨?_, by rw [parseDecimal, if_pos rfl, hdigits]⟩
  obtain ⟨b, s, rfl⟩ := List.exists_cons_of_ne_nil hne
  have hb : b ≠ ch '-' := by
    rintro rfl
    exact absurd (hw _ List.mem_cons_self) (by decide)
  rw [List.cons_append, parseDecimal, if_neg hb]
  exact hdigits

/-- Exact arithmetic keeps the laws, at any precision. -/
theorem doubles_exact (p : Precision) :
    letI := decimalFloat
    Doubles p id some := by
  let _ := decimalFloat
  refine
    { rounds := Precision.rounds_id
      strtod := ?_
      literal := fun _ _ _ => rfl
      ofInt := fun _ _ => rfl
      neg := ?_
      add := ?_
      sub := ?_
      mul := ?_
      div := ?_
      floor := ?_
      toInt := ?_ }
  · intro w f hne hw hf _
    obtain ⟨hpositive, hnegative⟩ := parseDecimal_text hne hw hf
    exact ⟨congrArg some hpositive, congrArg some hnegative⟩
  · rintro x a ⟨⟩
    rfl
  · rintro x y a b ⟨⟩ ⟨⟩ _
    rfl
  · rintro x y a b ⟨⟩ ⟨⟩ _
    rfl
  · rintro x y a b ⟨⟩ ⟨⟩ _
    rfl
  · rintro x y a b ⟨⟩ ⟨⟩ _ _
    rfl
  · rintro x a ⟨⟩
    rfl
  · rintro x a ⟨⟩ _
    rfl

/-! ## Digits -/

def digit (n : Nat) : Byte := BitVec.ofNat 8 (48 + n)

/-- The last `width` decimal digits of a number. -/
def digits : (width : Nat) → Nat → List Byte
  | 0, _ => []
  | width + 1, n => digits width (n / 10) ++ [digit (n % 10)]

@[simp] theorem length_digits (width n : Nat) : (digits width n).length = width := by
  induction width generalizing n with
  | zero => rfl
  | succ width ih => rw [digits, List.length_append, ih, List.length_singleton]

theorem toNat_digit {n : Nat} (hn : n < 10) : (digit n).toNat = 48 + n := by
  rw [digit, BitVec.toNat_ofNat]
  omega

theorem isDigit_of_mem {width n : Nat} {b : Byte} (hb : b ∈ digits width n) : IsDigit b := by
  induction width generalizing n with
  | zero => cases hb
  | succ width ih =>
      rw [digits, List.mem_append, List.mem_singleton] at hb
      rcases hb with hb | rfl
      · exact ih hb
      · have hlt : n % 10 < 10 := Nat.mod_lt _ (by decide)
        rw [IsDigit, toNat_digit hlt]
        omega

theorem decValue_append (acc : Nat) (s t : List Byte) :
    decValue acc (s ++ t) = decValue (decValue acc s) t := by
  induction s generalizing acc with
  | nil => rfl
  | cons b s ih => rw [List.cons_append, decValue, decValue, ih]

theorem decValue_digits {width n : Nat} (hn : n < 10 ^ width) :
    decValue 0 (digits width n) = n := by
  induction width generalizing n with
  | zero =>
      rw [pow_zero] at hn
      simp only [digits, decValue]
      omega
  | succ width ih =>
      have hlt : n % 10 < 10 := Nat.mod_lt _ (by decide)
      rw [digits, decValue_append, ih (by rw [pow_succ] at hn; omega)]
      simp only [decValue, toNat_digit hlt]
      omega

/-- The digits of two numbers, one behind the other. -/
theorem digits_append (a m : Nat) {b n : Nat} (hn : n < 10 ^ b) :
    digits a m ++ digits b n = digits (a + b) (m * 10 ^ b + n) := by
  induction b generalizing n with
  | zero =>
      rw [pow_zero] at hn
      obtain rfl : n = 0 := by omega
      simp [digits]
  | succ b ih =>
      have hdiv : (m * 10 ^ (b + 1) + n) / 10 = m * 10 ^ b + n / 10 := by
        rw [pow_succ, ← Nat.mul_assoc]
        omega
      have hmod : (m * 10 ^ (b + 1) + n) % 10 = n % 10 := by
        rw [pow_succ, ← Nat.mul_assoc]
        omega
      rw [digits, ← List.append_assoc, ih (by rw [pow_succ] at hn; omega), ← Nat.add_assoc, digits,
        hdiv, hmod]

theorem str2int_text {width n : Nat} (hw : 0 < width) (hn : n < 10 ^ width) (hint : n < 2 ^ 31) :
    str2int (digits width n) = n := by
  have hne : digits width n ≠ [] := by
    rw [← List.length_pos_iff, length_digits]
    exact hw
  rw [str2int_digits hne (fun b => isDigit_of_mem) (by rwa [decValue_digits hn]),
    decValue_digits hn]

/-! ## Decimal fractions -/

/-- A number with decimals. -/
structure FixedPoint where
  whole : Nat
  places : Nat
  frac : Nat
  frac_lt : frac < 10 ^ places

/-- A character that does not end a text early, nor its field. -/
def IsPlain (b : Byte) : Prop :=
  b ≠ 0 ∧ b ≠ ch ',' ∧ b ≠ ch '*' ∧ b ≠ ch '\r' ∧ b ≠ ch '\n'

instance (b : Byte) : Decidable (IsPlain b) := inferInstanceAs (Decidable (_ ∧ _ ∧ _ ∧ _ ∧ _))

theorem IsDigit.plain {b : Byte} (hb : IsDigit b) : IsPlain b := by
  refine ⟨?_, ?_, ?_, ?_, ?_⟩
  all_goals
    rintro rfl
    exact absurd hb (by decide)

namespace FixedPoint

variable (x : FixedPoint)

def value : ℚ := x.whole + x.frac / 10 ^ x.places

def text (width : Nat) : List Byte := digits width x.whole ++ ch '.' :: digits x.places x.frac

theorem length_text (width : Nat) : (x.text width).length = width + 1 + x.places := by
  rw [text, List.length_append, List.length_cons, length_digits, length_digits]
  omega

theorem frac_nonneg : (0 : ℚ) ≤ x.frac / 10 ^ x.places := by positivity

/-- The decimals keep away from the next whole number. -/
theorem frac_le {places : Nat} (h : x.places ≤ places) :
    (x.frac / 10 ^ x.places : ℚ) ≤ 1 - 1 / 10 ^ places := by
  have hpow : (0 : ℚ) < 10 ^ x.places := by positivity
  have hfrac : (x.frac : ℚ) + 1 ≤ 10 ^ x.places := by exact_mod_cast x.frac_lt
  have hmono : (1 : ℚ) / 10 ^ places ≤ 1 / 10 ^ x.places :=
    one_div_le_one_div_of_le hpow (pow_le_pow_right₀ (by norm_num) h)
  have hsplit : (x.frac / 10 ^ x.places : ℚ) + 1 / 10 ^ x.places ≤ 1 := by
    rw [← add_div]
    exact (div_le_one hpow).mpr hfrac
  linarith

theorem value_nonneg : 0 ≤ x.value := by
  rw [value]
  positivity

theorem text_plain {width : Nat} {b : Byte} (hb : b ∈ x.text width) : IsPlain b := by
  rw [text, List.mem_append, List.mem_cons] at hb
  rcases hb with hb | rfl | hb
  · exact (isDigit_of_mem hb).plain
  · decide
  · exact (isDigit_of_mem hb).plain

end FixedPoint

section Text

variable [CFloat] {p : Precision} {rnd : ℚ → ℚ} {value : CFloat.double → Option ℚ}

theorem str2float_plain {s : List Byte} (hne : s ≠ []) (hs : ∀ b ∈ s, IsPlain b)
    (hlen : s.length < 16) : str2float s = CFloat.strtod s := by
  have hall : s.takeWhile (fun b => b ≠ 0) = s := by
    rw [List.takeWhile_eq_self_iff]
    intro b hb
    simpa using (hs b hb).1
  rw [str2float, if_neg (by simpa using hne), if_neg (by omega), hall]

/-- `str2float` rounds a number of less than 16 characters once. -/
theorem str2float_text (hd : Doubles p rnd value) (x : FixedPoint) {width : Nat} (hw : 0 < width)
    (hwhole : x.whole < 10 ^ width) (hlen : width + 1 + x.places < 16) (hhuge : x.value ≤ p.huge) :
    value (str2float (x.text width)) = some (rnd x.value)
      ∧ (width + 2 + x.places < 16 →
        value (str2float (ch '-' :: x.text width)) = some (-rnd x.value)) := by
  have hlength := x.length_text width
  have hdigits : digits width x.whole ≠ [] := by
    rw [← List.length_pos_iff, length_digits]
    exact hw
  have hvalue : (decValue 0 (digits width x.whole)
      + decValue 0 (digits x.places x.frac) / 10 ^ (digits x.places x.frac).length : ℚ)
      = x.value := by
    rw [decValue_digits hwhole, decValue_digits x.frac_lt, length_digits, FixedPoint.value]
  have hstrtod := hd.strtod _ _ hdigits (fun b => isDigit_of_mem)
    (fun b (hb : b ∈ digits x.places x.frac) => isDigit_of_mem hb) (by rwa [hvalue])
  rw [hvalue] at hstrtod
  have hminus : ∀ b ∈ ch '-' :: x.text width, IsPlain b := by
    intro b hb
    rcases List.mem_cons.mp hb with rfl | hb
    · decide
    · exact x.text_plain hb
  have hne : x.text width ≠ [] := List.ne_nil_of_length_pos (by omega)
  refine ⟨?_, fun hroom => ?_⟩
  · rw [str2float_plain hne (fun b => x.text_plain) (by omega)]
    exact hstrtod.1
  · rw [str2float_plain (List.cons_ne_nil _ _) hminus (by rw [List.length_cons]; omega)]
    exact hstrtod.2

end Text

end HtcLeo
