import Mathlib.Data.List.TakeWhile
import HtcLeo.NmeaBody

/-!
# Numbers taken from the wire (`libgps/leo-gps.c`)

`str2int` gives the number a field holds, reduced into the `int` range, and
`-1` for a field that holds none. A number that is no `int` is reduced
instead of refused (`integer_field_iff`). Two callers rely on more. The
GSA branch shifts by the number without an upper bound, and
`nmea_reader_update_date` adds 2000 to the year before it looks for the
`-1`. Both are right exactly as long as the field does not reach the gap:
`used_in_fix_mask_iff` and `date_rejected_iff` say so for every sentence
and every pair of tokens.
-/

namespace HtcLeo

/-! ## What `str2int` returns -/

theorem wrap32_congr {x y : Int} (h : x % 2 ^ 32 = y % 2 ^ 32) : wrap32 x = wrap32 y := by
  rw [wrap32, wrap32, Int.bmod_def, Int.bmod_def, Nat.cast_pow, Nat.cast_ofNat, h]

theorem wrap32_small {n : Nat} (hn : n ≤ 32) : wrap32 n = n :=
  wrap32_eq (by omega) (by omega)

theorem str2intLoop_wrap (acc : Nat) {s : List Byte} (hs : ∀ b ∈ s, IsDigit b) :
    str2intLoop (wrap32 acc) s = wrap32 (decValue acc s) := by
  induction s generalizing acc with
  | nil => rfl
  | cons b s ih =>
      obtain ⟨hlo, hhi⟩ := hs b (List.mem_cons_self ..)
      have hround : wrap32 (wrap32 acc * 10 + ((b.toNat : Int) - 48))
          = wrap32 ((b.toNat - 48 + 10 * acc : Nat) : Int) := by
        have hacc := wrap32_emod acc
        refine wrap32_congr ?_
        omega
      rw [str2intLoop, if_neg (by omega), hround, decValue]
      exact ih _ fun c hc => hs c (List.mem_cons_of_mem _ hc)

/-- A number comes back reduced into the `int` range. -/
theorem str2int_wrap {s : List Byte} (hne : s ≠ []) (hs : ∀ b ∈ s, IsDigit b) :
    str2int s = wrap32 (decValue 0 s) := by
  rw [str2int, if_neg (by simpa using hne)]
  exact str2intLoop_wrap 0 hs

theorem str2intLoop_not_digits {acc : Int} {s : List Byte} (hs : ¬ ∀ b ∈ s, IsDigit b) :
    str2intLoop acc s = -1 := by
  induction s generalizing acc with
  | nil => exact absurd (by simp) hs
  | cons b s ih =>
      rw [str2intLoop]
      by_cases hb : IsDigit b
      · obtain ⟨hlo, hhi⟩ := hb
        rw [if_neg (by omega)]
        refine ih fun hrest => hs ?_
        rintro c (_ | ⟨_, hc⟩)
        · exact ⟨hlo, hhi⟩
        · exact hrest c hc
      · rw [if_pos]
        rw [IsDigit] at hb
        omega

/-- A text that is no number gives `-1`. -/
theorem str2int_not_digits {s : List Byte} (hs : s = [] ∨ ¬ ∀ b ∈ s, IsDigit b) :
    str2int s = -1 := by
  rw [str2int]
  split
  · rfl
  · rename_i hlen
    rcases hs with rfl | hs
    · exact absurd rfl hlen
    · exact str2intLoop_not_digits hs

/-- The number a field holds. -/
def fieldNumber (s : List Byte) : Option Nat :=
  if s ≠ [] ∧ ∀ b ∈ s, IsDigit b then some (decValue 0 s) else none

theorem fieldNumber_some {s : List Byte} {n : Nat} (h : fieldNumber s = some n) :
    str2int s = wrap32 n := by
  rw [fieldNumber] at h
  split at h
  · rename_i hs
    obtain rfl := Option.some.inj h
    exact str2int_wrap hs.1 hs.2
  · cases h

theorem fieldNumber_none {s : List Byte} (h : fieldNumber s = none) : str2int s = -1 := by
  rw [fieldNumber] at h
  split at h
  · cases h
  · rename_i hs
    refine str2int_not_digits ?_
    by_cases hne : s = []
    · exact .inl hne
    · exact .inr fun hdigits => hs ⟨hne, hdigits⟩

/-! ## Integer fields -/

/-- The digit loop of `str2int`, with the exact values of its `int` operations beside the
result: the digit, `result*10`, and the sum that is stored. -/
def str2intTrace : Int → List Byte → Int × List Int
  | result, [] => (result, [])
  | result, b :: rest =>
      let c := (b.toNat : Int) - 48
      if c < 0 ∨ 10 ≤ c then (-1, [c])
      else
        let (value, steps) := str2intTrace (wrap32 (result * 10 + c)) rest
        (value, c :: result * 10 :: (result * 10 + c) :: steps)

theorem str2intTrace_value (result : Int) (s : List Byte) :
    (str2intTrace result s).1 = str2intLoop result s := by
  induction s generalizing result with
  | nil => rfl
  | cons b s ih =>
      rw [str2intTrace, str2intLoop]
      split
      · rfl
      · exact ih _

/-- What a caller of `str2int` expects: the number of a field whose number is an `int`, `-1`
for any other field, and no operation that leaves the `int` range. -/
structure ReadsInt (s : List Byte) : Prop where
  number : ∀ n, fieldNumber s = some n → n < 2 ^ 31 → str2int s = n
  other : (∀ n, fieldNumber s = some n → 2 ^ 31 ≤ n) → str2int s = -1
  steps : ∀ v ∈ (str2intTrace 0 s).2, -2 ^ 31 ≤ v ∧ v < 2 ^ 31
  sign : str2int s = -1 ∨ 0 ≤ str2int s

/-- The operations stay in range as long as the digits read so far are an `int`. The
induction is on the token; once a sum is too large, so is the value of all the digits. -/
theorem steps_in_range_iff {acc : Nat} (hacc : acc < 2 ^ 31) (s : List Byte) :
    (∀ v ∈ (str2intTrace acc s).2, -2 ^ 31 ≤ v ∧ v < 2 ^ 31) ↔
      decValue acc (s.takeWhile fun b => IsDigit b) < 2 ^ 31 := by
  induction s generalizing acc with
  | nil => exact iff_of_true (fun v hv => absurd hv List.not_mem_nil) hacc
  | cons b s ih =>
      have hbyte : b.toNat < 2 ^ 8 := b.isLt
      by_cases hb : IsDigit b
      · obtain ⟨hlo, hhi⟩ := hb
        rw [str2intTrace, if_neg (by omega), List.takeWhile_cons_of_pos (by simp [IsDigit, hlo, hhi]),
          decValue]
        have hsum : (acc : Int) * 10 + ((b.toNat : Int) - 48) = (b.toNat - 48 + 10 * acc : Nat) := by
          omega
        have hle := le_decValue (b.toNat - 48 + 10 * acc) (s.takeWhile fun b => IsDigit b)
        simp only [hsum, List.forall_mem_cons]
        by_cases hnext : b.toNat - 48 + 10 * acc < 2 ^ 31
        · rw [wrap32_eq (by omega) (by omega), ih hnext]
          constructor
          · rintro ⟨-, -, -, hrest⟩
            exact hrest
          · intro hrest
            exact ⟨by omega, by omega, by omega, hrest⟩
        · constructor
          · rintro ⟨-, -, hfits, -⟩
            omega
          · intro hrest
            omega
      · rw [str2intTrace, if_pos (by rw [IsDigit] at hb; omega),
          List.takeWhile_cons_of_neg (by simpa using hb)]
        refine iff_of_true ?_ hacc
        intro v hv
        rw [List.mem_singleton.mp hv]
        omega

theorem fieldNumber_lt {s : List Byte} {n : Nat}
    (hlt : decValue 0 (s.takeWhile fun b => IsDigit b) < 2 ^ 31) (h : fieldNumber s = some n) :
    n < 2 ^ 31 := by
  rw [fieldNumber] at h
  split at h
  · rename_i hs
    rw [List.takeWhile_eq_self_iff.mpr (by simpa using hs.2)] at hlt
    exact Option.some.inj h ▸ hlt
  · cases h

/-- **Integer fields.** `str2int` reads a token as its callers expect if and only if the
digits the token starts with are an `int`. -/
theorem integer_field_iff (s : List Byte) :
    ReadsInt s ↔ decValue 0 (s.takeWhile fun b => IsDigit b) < 2 ^ 31 := by
  rw [← steps_in_range_iff (by decide) s]
  constructor
  · intro h
    exact h.steps
  · intro hsteps
    have hlt := (steps_in_range_iff (by decide) s).mp hsteps
    cases hfield : fieldNumber s with
    | none =>
        have hvalue := fieldNumber_none hfield
        refine ⟨?_, fun _ => hvalue, hsteps, .inl hvalue⟩
        intro n hn
        rw [hfield] at hn
        cases hn
    | some n =>
        have hn := fieldNumber_lt hlt hfield
        have hvalue : str2int s = n := by
          rw [fieldNumber_some hfield, wrap32_eq (by omega) (by omega)]
        refine ⟨?_, ?_, hsteps, .inr (by omega)⟩
        · intro n' hn' _
          rw [hfield] at hn'
          obtain rfl := Option.some.inj hn'
          exact hvalue
        · intro hlarge
          have := hlarge n hfield
          omega

/-- Ten digits, one more than the largest `int`. -/
def largeField : List Byte := "2147483648".toList.map ch

theorem large_field_wraps :
    largeField.length ≤ 255 ∧ fieldNumber largeField = some 2147483648
      ∧ str2int largeField = -2147483648 ∧ ¬ReadsInt largeField := by
  have hvalue : str2int largeField = -2147483648 := by decide +kernel
  refine ⟨by decide, by decide +kernel, hvalue, fun h => ?_⟩
  rcases h.sign with hsign | hsign
  · rw [hvalue] at hsign
    cases hsign
  · rw [hvalue] at hsign
    exact absurd hsign (by decide)

/-! ## The mask of satellites used in the fix -/

theorem shiftOne_bit {n : Int} {k : Nat} (hk : k < 32) :
    (shiftOne n).getLsbD k = true ↔ (n % 256).toNat = k := by
  rw [shiftOne, BitVec.getLsbD_ofNat, Nat.one_shiftLeft, Nat.testBit_two_pow]
  simp [hk]

/-- The loop shifts by one less than each positive number it reads. -/
theorem gsaLoop_shifts (tz : NmeaTokenizer) (n i : Nat) (mask : Word) (a : Int) :
    a ∈ (gsaLoop tz n i mask).2 ↔
      ∃ j, i ≤ j ∧ j < i + n ∧ 0 < str2int (nmeaTokenizerGet tz j).bytes
        ∧ a = str2int (nmeaTokenizerGet tz j).bytes - 1 := by
  induction n generalizing i mask with
  | zero =>
      simp only [gsaLoop, List.not_mem_nil, false_iff]
      rintro ⟨j, hlo, hhi, -⟩
      omega
  | succ n ih =>
      have hsplit : ∀ P : Nat → Prop,
          (∃ j, i ≤ j ∧ j < i + (n + 1) ∧ P j) ↔ P i ∨ ∃ j, i + 1 ≤ j ∧ j < i + 1 + n ∧ P j := by
        intro P
        constructor
        · rintro ⟨j, hlo, hhi, hj⟩
          rcases Nat.eq_or_lt_of_le hlo with rfl | hlt
          · exact .inl hj
          · exact .inr ⟨j, hlt, by omega, hj⟩
        · rintro (hi | ⟨j, hlo, hhi, hj⟩)
          · exact ⟨i, le_refl _, by omega, hi⟩
          · exact ⟨j, by omega, by omega, hj⟩
      rw [hsplit, gsaLoop]
      split
      · rename_i hpos
        simp only [List.mem_cons, ih]
        constructor
        · rintro (ha | hrest)
          · exact .inl ⟨hpos, ha⟩
          · exact .inr hrest
        · rintro (⟨-, ha⟩ | hrest)
          · exact .inl ha
          · exact .inr hrest
      · rename_i hpos
        rw [ih]
        constructor
        · exact .inr
        · rintro (⟨hpos', -⟩ | hrest)
          · exact absurd hpos' hpos
          · exact hrest

/-- Every bit of the mask was there before or comes from a shift. -/
theorem gsaLoop_mask (tz : NmeaTokenizer) (n i : Nat) (mask : Word) {k : Nat} (hk : k < 32) :
    (gsaLoop tz n i mask).1.getLsbD k = true ↔
      mask.getLsbD k = true ∨ ∃ a ∈ (gsaLoop tz n i mask).2, (a % 256).toNat = k := by
  induction n generalizing i mask with
  | zero => simp [gsaLoop]
  | succ n ih =>
      rw [gsaLoop]
      split
      · simp only [ih, BitVec.getLsbD_or, Bool.or_eq_true, shiftOne_bit hk, List.mem_cons,
          exists_eq_or_imp, or_assoc]
      · exact ih _ _

/-- Field `i` of a sentence: the text without its frame, split at commas. -/
def sentenceField (s : List Byte) (i : Nat) : List Byte :=
  ((stripFrame s).splitOn (ch ',')).getD i []

/-- The PRNs of a GSA sentence: the numbers in fields 3 to 14. -/
def gsaPrns (s : List Byte) : List Nat :=
  ((List.range 12).map fun i => sentenceField s (3 + i)).filterMap fieldNumber

theorem mem_gsaPrns {s : List Byte} {prn : Nat} :
    prn ∈ gsaPrns s ↔ ∃ j, 3 ≤ j ∧ j < 15 ∧ fieldNumber (sentenceField s j) = some prn := by
  simp only [gsaPrns, List.filterMap_map, List.mem_filterMap, List.mem_range, Function.comp_apply]
  constructor
  · rintro ⟨i, hi, hprn⟩
    exact ⟨3 + i, by omega, by omega, hprn⟩
  · rintro ⟨j, hlo, hhi, hprn⟩
    refine ⟨j - 3, by omega, ?_⟩
    rwa [show 3 + (j - 3) = j by omega]

section

variable [CFloat]

/-- What a GSA sentence with the given PRNs should do: shift within the word, and
mark exactly those PRNs. -/
structure MarksUsed (prns : List Nat) (out : ParseOut) : Prop where
  shifts : ∀ a ∈ out.shifts, 0 ≤ a ∧ a < 32
  mask : ∀ k < 32, out.reader.svStatus.usedInFixMask.getLsbD k = true ↔ k + 1 ∈ prns

/-- No PRN is above 32, up to the reduction of `str2int`: a number that does not
fit an `int` may also come out as no PRN at all, or as one that is listed. -/
def PrnsInRange (prns : List Nat) : Prop :=
  ∀ prn ∈ prns, wrap32 prn ≤ 32 ∧ (0 < wrap32 prn → (wrap32 prn).toNat ∈ prns)

/-- The tokens of a loaded sentence are its fields. -/
theorem NmeaReader.load_field (r : NmeaReader) (s : List Byte) {i : Nat} (hi : i < maxNmeaTokens) :
    (nmeaTokenizerGet (nmeaTokenizerInit (r.load s).inBuf 0 s.length) i).bytes
      = sentenceField s i := by
  rw [nmeaTokenizerGet_bytes, if_pos hi, sentenceBody_eq, r.load_slice]
  rfl

theorem nmeaReaderParse_gsa (env : NmeaEnv) (r : NmeaReader) {s : List Byte}
    (hkind : textKind s = .gsa)
    (hfix : (sentenceField s 2).head? = some (ch '2') ∨ (sentenceField s 2).head? = some (ch '3')) :
    (nmeaReaderParse env (r.load s)).shifts
        = (gsaLoop (nmeaTokenizerInit (r.load s).inBuf 0 s.length) 12 3 0).2
      ∧ (nmeaReaderParse env (r.load s)).reader.svStatus.usedInFixMask
        = (gsaLoop (nmeaTokenizerInit (r.load s).inBuf 0 s.length) 12 3 0).1 := by
  have hbuffer : bufferKind (r.load s).inBuf (r.load s).pos = .gsa :=
    (bufferKind_eq_textKind (r.load_slice s)).trans hkind
  have hown := nmeaTokenizerGet_testsOwn (r.load s).inBuf s.length 2
  have hfirst : (nmeaTokenizerGet (nmeaTokenizerInit (r.load s).inBuf 0 s.length) 2).first = ch '3'
      ∨ (nmeaTokenizerGet (nmeaTokenizerInit (r.load s).inBuf 0 s.length) 2).first = ch '2' := by
    rw [← r.load_field s (by decide)] at hfix
    rcases hfix with h2 | h3
    · exact .inr ((hown.letter '2' (by simp)).mpr h2)
    · exact .inl ((hown.letter '3' (by simp)).mpr h3)
  have hpos : (r.load s).pos = s.length := rfl
  rw [nmeaReaderParse_eq, hbuffer, hpos]
  simp only [parseGsa]
  rw [if_pos hfirst]
  exact ⟨rfl, rfl⟩

/-- The amounts shifted by are those of the PRNs that `str2int` leaves positive. -/
theorem gsaShifts_eq (r : NmeaReader) (s : List Byte) (a : Int) :
    a ∈ (gsaLoop (nmeaTokenizerInit (r.load s).inBuf 0 s.length) 12 3 0).2 ↔
      ∃ prn ∈ gsaPrns s, 0 < wrap32 prn ∧ a = wrap32 prn - 1 := by
  rw [gsaLoop_shifts]
  constructor
  · rintro ⟨j, hlo, hhi, hpos, rfl⟩
    rw [r.load_field s (by rw [maxNmeaTokens]; omega)] at hpos ⊢
    cases hnum : fieldNumber (sentenceField s j) with
    | none =>
        rw [fieldNumber_none hnum] at hpos
        omega
    | some prn =>
        rw [fieldNumber_some hnum] at hpos ⊢
        exact ⟨prn, mem_gsaPrns.mpr ⟨j, hlo, hhi, hnum⟩, hpos, rfl⟩
  · rintro ⟨prn, hprn, hpos, ha⟩
    obtain ⟨j, hlo, hhi, hnum⟩ := mem_gsaPrns.mp hprn
    refine ⟨j, hlo, hhi, ?_⟩
    rw [r.load_field s (by rw [maxNmeaTokens]; omega), fieldNumber_some hnum]
    exact ⟨hpos, ha⟩

/-- Of a parse that shifts by one less than each positive number of `prns` and marks what it
shifts by. -/
theorem marksUsed_iff {prns : List Nat} {out : ParseOut}
    (hshifts : ∀ a, a ∈ out.shifts ↔ ∃ prn ∈ prns, 0 < wrap32 prn ∧ a = wrap32 prn - 1)
    (hbits : ∀ k < 32, out.reader.svStatus.usedInFixMask.getLsbD k = true ↔
      ∃ a ∈ out.shifts, (a % 256).toNat = k) :
    MarksUsed prns out ↔ PrnsInRange prns := by
  constructor
  · intro h prn hprn
    by_cases hpos : 0 < wrap32 prn
    · have hshift : wrap32 prn - 1 ∈ out.shifts := (hshifts _).mpr ⟨prn, hprn, hpos, rfl⟩
      obtain ⟨hlo, hhi⟩ := h.shifts _ hshift
      refine ⟨by omega, fun _ => ?_⟩
      have hmarked := (h.mask ((wrap32 prn).toNat - 1) (by omega)).mp
        ((hbits _ (by omega)).mpr ⟨_, hshift, by omega⟩)
      rwa [show (wrap32 prn).toNat - 1 + 1 = (wrap32 prn).toNat by omega] at hmarked
    · exact ⟨by omega, fun hpos' => absurd hpos' hpos⟩
  · intro h
    refine ⟨fun a ha => ?_, fun k hk => ?_⟩
    · obtain ⟨prn, hprn, hpos, hprn'⟩ := (hshifts a).mp ha
      have := (h prn hprn).1
      omega
    · rw [hbits k hk]
      constructor
      · rintro ⟨a, ha, hak⟩
        obtain ⟨prn, hprn, hpos, hprn'⟩ := (hshifts a).mp ha
        obtain ⟨hle, hlisted⟩ := h prn hprn
        rw [show k + 1 = (wrap32 prn).toNat by omega]
        exact hlisted hpos
      · intro hlisted
        have hwrap : wrap32 ((k + 1 : Nat) : Int) = (k + 1 : Nat) := wrap32_small (by omega)
        refine ⟨k, (hshifts _).mpr ⟨k + 1, hlisted, ?_, ?_⟩, ?_⟩
        · omega
        · omega
        · omega

/-- **The mask of satellites used.** A GSA sentence with a fix shifts within the
word and marks exactly its PRNs if and only if none of them is above 32. -/
theorem used_in_fix_mask_iff (env : NmeaEnv) (r : NmeaReader) (s : List Byte)
    (hkind : textKind s = .gsa)
    (hfix : (sentenceField s 2).head? = some (ch '2') ∨ (sentenceField s 2).head? = some (ch '3')) :
    MarksUsed (gsaPrns s) (nmeaReaderParse env (r.load s)) ↔ PrnsInRange (gsaPrns s) := by
  obtain ⟨hshifts, hmask⟩ := nmeaReaderParse_gsa env r hkind hfix
  refine marksUsed_iff (fun a => ?_) (fun k hk => ?_)
  · rw [hshifts, gsaShifts_eq]
  · rw [hmask, gsaLoop_mask _ _ _ _ hk, hshifts]
    simp

end

/-- Three satellites used, of twelve fields. -/
def threeUsedGsa : List Byte := "$GPGSA,A,3,05,,12,,,,32,,,,,,2.1,1.2,1.7\n".toList.map ch

theorem three_used_marked :
    letI : CFloat := decimalFloat
    PrnsInRange (gsaPrns threeUsedGsa)
      ∧ MarksUsed (gsaPrns threeUsedGsa)
          (nmeaReaderParse quietEnv ((nmeaReaderInit 0).load threeUsedGsa)) := by
  let _ : CFloat := decimalFloat
  have hprns : gsaPrns threeUsedGsa = [5, 12, 32] := by decide +kernel
  have hrange : PrnsInRange (gsaPrns threeUsedGsa) := by
    rw [hprns]
    intro prn hprn
    have hle : prn ≤ 32 := by
      simp only [List.mem_cons, List.not_mem_nil, or_false] at hprn
      omega
    rw [wrap32_small hle]
    exact ⟨by omega, fun _ => by simpa using hprn⟩
  exact ⟨hrange, (used_in_fix_mask_iff quietEnv (nmeaReaderInit 0) threeUsedGsa (by decide +kernel)
    (by decide +kernel)).mpr hrange⟩

/-- A GLONASS satellite among those used. -/
def glonassGsa : List Byte := "$GNGSA,A,3,65,,,,,,,,,,,,2.1,1.2,1.7\n".toList.map ch

/-- PRN 65 is shifted by 64. -/
theorem glonass_shifted_out :
    letI : CFloat := decimalFloat
    textKind glonassGsa = .gsa
      ∧ (sentenceField glonassGsa 2).head? = some (ch '3')
      ∧ (nmeaReaderParse quietEnv ((nmeaReaderInit 0).load glonassGsa)).shifts = [64]
      ∧ ¬MarksUsed (gsaPrns glonassGsa)
          (nmeaReaderParse quietEnv ((nmeaReaderInit 0).load glonassGsa)) := by
  let _ : CFloat := decimalFloat
  have hshifts : (nmeaReaderParse quietEnv ((nmeaReaderInit 0).load glonassGsa)).shifts = [64] := by
    decide +kernel
  refine ⟨by decide +kernel, by decide +kernel, hshifts, fun h => ?_⟩
  have hlt := (h.shifts 64 (by rw [hshifts]; exact List.mem_singleton.mpr rfl)).2
  exact absurd hlt (by decide)

/-! ## Dates -/

/-- Two characters are a number when both are digits. -/
theorem str2int_two {s : List Byte} (hlen : s.length = 2) :
    ((∀ b ∈ s, IsDigit b) → str2int s = decValue 0 s) ∧ (0 ≤ str2int s ↔ ∀ b ∈ s, IsDigit b) := by
  obtain ⟨b, c, rfl⟩ := List.length_eq_two.mp hlen
  have hvalue : (∀ x ∈ [b, c], IsDigit x) → str2int [b, c] = decValue 0 [b, c] := by
    intro hdigits
    have hb := (hdigits b (by simp)).2
    have hc := (hdigits c (by simp)).2
    refine str2int_digits (by simp) hdigits ?_
    simp only [decValue]
    omega
  refine ⟨hvalue, fun hnonneg => ?_, fun hdigits => ?_⟩
  · by_contra hdigits
    rw [str2int_not_digits (.inr hdigits)] at hnonneg
    omega
  · rw [hvalue hdigits]
    exact Int.natCast_nonneg _

/-- Six digits. -/
def IsDate (date : List Byte) : Prop := date.length = 6 ∧ ∀ b ∈ date, IsDigit b

/-- Day and month are digits and the year is not. -/
def OnlyYearBad (date : List Byte) : Prop :=
  date.length = 6 ∧ (∀ b ∈ date.take 4, IsDigit b) ∧ ¬ ∀ b ∈ date.drop 4, IsDigit b

/-- The part of a token as the part of its text. -/
theorem Token.sub_two {t : Token} (hlen : t.p + 6 = t.stop) :
    t.sub 0 2 = t.bytes.take 2 ∧ t.sub 2 4 = (t.bytes.drop 2).take 2 ∧ t.sub 4 6 = t.bytes.drop 4 := by
  have h02 := Token.sub_eq (t := t) (a := 0) (b := 2) (by omega) (by omega)
  have h24 := Token.sub_eq (t := t) (a := 2) (b := 4) (by omega) (by omega)
  have h46 := Token.sub_eq (t := t) (a := 4) (b := 6) (by omega) (by omega)
  refine ⟨h02, h24, ?_⟩
  rw [h46, List.take_of_length_le]
  rw [List.length_drop, t.length_bytes]
  omega

/-- The test of the date looks at the digits of day and month only: a year is never
negative. -/
theorem anyNegative_date {s : List Byte} (hlen : s.length = 6) :
    anyNegative (str2int (s.take 2)) (str2int ((s.drop 2).take 2)) (str2int (s.drop 4) + 2000)
      = false ↔ ∀ b ∈ s.take 4, IsDigit b := by
  obtain ⟨-, hday⟩ := str2int_two (s := s.take 2) (by simp [hlen])
  obtain ⟨-, hmon⟩ := str2int_two (s := (s.drop 2).take 2) (by simp [hlen])
  obtain ⟨-, hyear⟩ := str2int_two (s := s.drop 4) (by simp [hlen])
  have hyear' : ¬str2int (s.drop 4) + 2000 < 0 := by
    by_cases hdigits : ∀ b ∈ s.drop 4, IsDigit b
    · have := hyear.mpr hdigits
      omega
    · rw [str2int_not_digits (.inr hdigits)]
      omega
  have htake : (∀ b ∈ s.take 4, IsDigit b) ↔
      (∀ b ∈ s.take 2, IsDigit b) ∧ ∀ b ∈ (s.drop 2).take 2, IsDigit b := by
    rw [← List.forall_mem_append, ← List.take_add]
  rw [htake, ← hday, ← hmon]
  simp [anyNegative, not_lt.mp hyear']

section

variable [CFloat]

/-- A bad date changes nothing and is reported. -/
def RejectsBadDate (env : NmeaEnv) (r : NmeaReader) (date time : Token) : Prop :=
  ¬IsDate date.bytes → nmeaReaderUpdateDate env r date time = (-1, r)

/-- The date is the reader's own already and there is no time: nothing to change,
and the missing time is reported. -/
def AlreadyDated (r : NmeaReader) (date time : List Byte) : Prop :=
  time.length < 6 ∧ r.utcYear = 1999 ∧ r.utcMon = decValue 0 ((date.drop 2).take 2)
    ∧ r.utcDay = decValue 0 (date.take 2)

/-- A date of six characters is stored when its day and month are digits, with 1999
for a year that is none. -/
theorem nmeaReaderUpdateDate_six (env : NmeaEnv) (r : NmeaReader) (date time : Token)
    (hlen : date.p + 6 = date.stop) :
    nmeaReaderUpdateDate env r date time =
      if ∀ b ∈ date.bytes.take 4, IsDigit b then
        nmeaReaderUpdateTime env { r with
          utcYear := str2int (date.bytes.drop 4) + 2000
          utcMon := decValue 0 ((date.bytes.drop 2).take 2)
          utcDay := decValue 0 (date.bytes.take 2) } time
      else (-1, r) := by
  have hbytes : date.bytes.length = 6 := by
    rw [date.length_bytes]
    omega
  obtain ⟨h02, h24, h46⟩ := Token.sub_two hlen
  rw [nmeaReaderUpdateDate, if_neg (not_not.mpr hlen), h02, h24, h46]
  by_cases hhead : ∀ b ∈ date.bytes.take 4, IsDigit b
  · have hany := (anyNegative_date hbytes).mpr hhead
    have hday : ∀ b ∈ date.bytes.take 2, IsDigit b :=
      fun b hb => hhead b (List.take_subset_take_left _ (by decide) hb)
    have hmon : ∀ b ∈ (date.bytes.drop 2).take 2, IsDigit b := by
      intro b hb
      rw [List.take_drop] at hb
      exact hhead b (List.mem_of_mem_drop hb)
    simp only [hany, Bool.false_eq_true, if_false]
    rw [if_pos hhead, (str2int_two (by simp [hbytes])).1 hday,
      (str2int_two (by simp [hbytes])).1 hmon]
  · have hany := mt (anyNegative_date hbytes).mp hhead
    rw [Bool.not_eq_false] at hany
    simp only [hany, if_true]
    rw [if_neg hhead]

theorem dated_eq_iff {r : NmeaReader} {year mon day : Int} :
    { r with utcYear := year, utcMon := mon, utcDay := day } = r ↔
      r.utcYear = year ∧ r.utcMon = mon ∧ r.utcDay = day := by
  constructor
  · intro h
    exact ⟨(congrArg NmeaReader.utcYear h).symm, (congrArg NmeaReader.utcMon h).symm,
      (congrArg NmeaReader.utcDay h).symm⟩
  · rintro ⟨rfl, rfl, rfl⟩
    rfl

/-- **Bad dates.** A date token that is not six digits is rejected without effect if
and only if its year is not the only part at fault, apart from the case where
storing it would change nothing. -/
theorem date_rejected_iff (env : NmeaEnv) (r : NmeaReader) (date time : Token) :
    RejectsBadDate env r date time ↔
      ¬OnlyYearBad date.bytes ∨ AlreadyDated r date.bytes time.bytes := by
  by_cases honly : OnlyYearBad date.bytes
  · -- the `-1` of the year is lost, so the date is stored
    obtain ⟨hlen, hhead, hyear⟩ := honly
    have hbad : ¬IsDate date.bytes := fun h => hyear fun b hb => h.2 b (List.mem_of_mem_drop hb)
    rw [date.length_bytes] at hlen
    rw [RejectsBadDate, nmeaReaderUpdateDate_six env r date time (by omega), if_pos hhead,
      str2int_not_digits (.inr hyear), nmeaReaderUpdateTime, AlreadyDated, time.length_bytes]
    by_cases htime : time.p + 6 > time.stop
    · rw [if_pos htime]
      constructor
      · intro h
        have hsame := dated_eq_iff.mp (Prod.mk.inj (h hbad)).2
        exact .inr ⟨by omega, hsame⟩
      · rintro (hnot | ⟨-, hsame⟩) -
        · exact absurd ⟨by rw [date.length_bytes]; omega, hhead, hyear⟩ hnot
        · exact Prod.ext rfl (dated_eq_iff.mpr hsame)
    · rw [if_neg htime]
      constructor
      · intro h
        have hstatus : (0 : Int) = -1 := congrArg Prod.fst (h hbad)
        omega
      · rintro (hnot | ⟨hshort, -⟩)
        · exact absurd ⟨by rw [date.length_bytes]; omega, hhead, hyear⟩ hnot
        · omega
  · refine iff_of_true (fun hbad => ?_) (.inl honly)
    by_cases hlen : date.p + 6 = date.stop
    · rw [nmeaReaderUpdateDate_six env r date time hlen, if_neg]
      intro hhead
      have hsix : date.bytes.length = 6 := by
        rw [date.length_bytes]
        omega
      refine honly ⟨hsix, hhead, fun hyear => hbad ⟨hsix, ?_⟩⟩
      rw [← List.take_append_drop 4 date.bytes]
      exact List.forall_mem_append.mpr ⟨hhead, hyear⟩
    · rw [nmeaReaderUpdateDate, if_pos hlen]

end

/-- A token that holds the text. -/
def tokenOf (s : List Byte) : Token := ⟨textMem s, 0, s.length⟩

/-- The first of January with a year of letters is taken for 1999. -/
theorem lettered_year_stored :
    letI : CFloat := decimalFloat
    let date := "0101xx".toList.map ch
    let time := "120000".toList.map ch
    ¬IsDate date
      ∧ (nmeaReaderUpdateDate quietEnv (nmeaReaderInit 0) (tokenOf date) (tokenOf time)).1 = 0
      ∧ (nmeaReaderUpdateDate quietEnv (nmeaReaderInit 0) (tokenOf date) (tokenOf time)).2.utcYear
        = 1999
      ∧ ¬RejectsBadDate quietEnv (nmeaReaderInit 0) (tokenOf date) (tokenOf time) := by
  let _ : CFloat := decimalFloat
  intro date time
  have hbad : ¬IsDate date := fun h => absurd (h.2 (ch 'x') (by decide +kernel)) (by decide)
  have hstatus : (nmeaReaderUpdateDate quietEnv (nmeaReaderInit 0) (tokenOf date) (tokenOf time)).1
      = 0 := by decide +kernel
  refine ⟨hbad, hstatus, by decide +kernel, fun h => ?_⟩
  have hreject := h (by rw [show (tokenOf date).bytes = date by decide +kernel]; exact hbad)
  rw [hreject] at hstatus
  exact absurd hstatus (by decide)

end HtcLeo
