import Mathlib.Data.Rat.Defs
import HtcLeo.CInt
import HtcLeo.Mem

/-!
# NMEA tokenizer and field conversions (`libgps/leo-gps.c`)

A sentence is cut into comma-separated tokens, each a pair of pointers
into the reader's buffer, and the fields are converted by `str2int` and
`str2float`. Tokens keep the memory they point into: the parser reads
the first character of a token without looking at its length, so what
lies behind an empty token is part of the behaviour.

Floating point is a parameter. `CFloat` lists the operations the parser
applies to `double` and `float` values; nothing about rounding is
assumed, only that the all-zero `float` and `-1.0` are not positive.

`nmeaTokenizerGet_bytes` is the specification of the tokenizer: token
`i` holds the `i`-th field of the sentence body split at commas.
-/

namespace HtcLeo

/-- A character constant of the source, as the byte it stands for. -/
def ch (c : Char) : Byte := BitVec.ofNat 8 c.toNat

/-! ## Floating point -/

/-- The C floating-point types with the operations used on them. -/
class CFloat where
  double : Type
  float : Type
  /-- `strtod` of a string, given without its terminating NUL. -/
  strtod : List Byte → double
  /-- The `double` nearest to `n / 10 ^ k`: a constant of the source. -/
  literal : Int → Nat → double
  /-- The usual conversion of an `int` operand. -/
  ofInt : Int → double
  neg : double → double
  add : double → double → double
  sub : double → double → double
  mul : double → double → double
  div : double → double → double
  floor : double → double
  /-- The cast `(int)`. -/
  toInt : double → Int
  /-- The cast `(float)`. -/
  toFloat : double → float
  ofFloat : float → double
  /-- The cast `(float)` of a `uint8_t`. -/
  ofByte : Byte → float
  mulFloat : float → float → float
  /-- `x > 0`. -/
  isPos : float → Bool
  zeroDouble : double
  zeroFloat : float
  isPos_zeroFloat : isPos zeroFloat = false
  isPos_minusOne : isPos (toFloat (literal (-1) 0)) = false

/-! ## Tokens -/

/-- A token: the memory its pointers refer to, `p` and `end`. -/
structure Token where
  mem : Mem
  p : Nat
  stop : Nat

namespace Token

/-- The characters `p[0 .. end - p)`. -/
def bytes (t : Token) : List Byte := t.mem.slice t.p (t.stop - t.p)

/-- The characters `p[a .. b)`. -/
def sub (t : Token) (a b : Nat) : List Byte := t.mem.slice (t.p + a) (b - a)

/-- `p[0]`, read whatever the length of the token. -/
def first (t : Token) : Byte := t.mem t.p

/-- Both pointers at the static empty string. -/
def dummy : Token := ⟨fun _ => 0, 0, 0⟩

@[simp] theorem bytes_dummy : dummy.bytes = [] := rfl

theorem length_bytes (t : Token) : t.bytes.length = t.stop - t.p := by
  simp [bytes]

theorem sub_eq {t : Token} {a b : Nat} (hab : a ≤ b) (hb : t.p + b ≤ t.stop) :
    t.sub a b = (t.bytes.drop a).take (b - a) := by
  rw [bytes, Mem.drop_slice (by omega), Mem.take_slice (by omega)]
  rfl

end Token

def maxNmeaTokens : Nat := 32

/-- The tokens stored so far; `count` is the length. -/
structure NmeaTokenizer where
  tokens : List Token

def NmeaTokenizer.count (t : NmeaTokenizer) : Nat := t.tokens.length

/-- `memchr(p, c, n)`, as the offset found. -/
def memchr (m : Mem) (c : Byte) (p : Nat) : Nat → Option Nat
  | 0 => none
  | n + 1 => if m p = c then some p else memchr m c (p + 1) n

/-- The token loop from `p` on, `count` tokens being stored already. Every
round moves `p`, so `stop - p` rounds are enough. -/
def tokenizeLoop (m : Mem) (stop : Nat) : (fuel p count : Nat) → List Token
  | 0, _, _ => []
  | fuel + 1, p, count =>
      if p < stop then
        let q := (memchr m (ch ',') p (stop - p)).getD stop
        let next := if q < stop then q + 1 else q
        if count < maxNmeaTokens then
          ⟨m, p, q⟩ :: tokenizeLoop m stop fuel next (count + 1)
        else
          tokenizeLoop m stop fuel next count
      else []

/-- Without the optional `$`. -/
def skipDollar (m : Mem) (p stop : Nat) : Nat :=
  if p < stop ∧ m p = ch '$' then p + 1 else p

/-- Without a trailing newline. -/
def dropNewline (m : Mem) (p stop : Nat) : Nat :=
  if p < stop ∧ m (stop - 1 : Nat) = ch '\n' then
    if p < stop - 1 ∧ m (stop - 2 : Nat) = ch '\r' then stop - 2 else stop - 1
  else stop

/-- Without a trailing checksum. -/
def dropChecksum (m : Mem) (p stop : Nat) : Nat :=
  if p + 3 ≤ stop ∧ m (stop - 3 : Nat) = ch '*' then stop - 3 else stop

/-- Start of the sentence body. -/
def bodyStart (m : Mem) (p stop : Nat) : Nat := skipDollar m p stop

/-- End of the sentence body. -/
def bodyStop (m : Mem) (p stop : Nat) : Nat :=
  dropChecksum m (skipDollar m p stop) (dropNewline m (skipDollar m p stop) stop)

def nmeaTokenizerInit (m : Mem) (p stop : Nat) : NmeaTokenizer :=
  ⟨tokenizeLoop m (bodyStop m p stop) (bodyStop m p stop - bodyStart m p stop)
    (bodyStart m p stop) 0⟩

def nmeaTokenizerGet (t : NmeaTokenizer) (index : Nat) : Token :=
  if index ≥ t.count then .dummy else t.tokens.getD index .dummy

theorem nmeaTokenizerGet_eq (t : NmeaTokenizer) (index : Nat) :
    nmeaTokenizerGet t index = t.tokens.getD index .dummy := by
  unfold nmeaTokenizerGet NmeaTokenizer.count
  split
  · rw [List.getD_eq_getElem?_getD, List.getElem?_eq_none (by omega), Option.getD_none]
  · rfl

/-! ## What the tokenizer computes -/

/-- `memchr` cuts the range at the first occurrence. -/
theorem memchr_some {m : Mem} {c : Byte} {p n q : Nat} (h : memchr m c p n = some q) :
    p ≤ q ∧ q < p + n ∧ c ∉ m.slice p (q - p) ∧ m q = c := by
  induction n generalizing p with
  | zero => simp [memchr] at h
  | succ n ih =>
      rw [memchr] at h
      split at h
      · rename_i hc
        obtain rfl := Option.some.inj h
        exact ⟨le_refl _, by omega, by simp [Mem.slice], hc⟩
      · rename_i hc
        obtain ⟨hle, hlt, hnot, hq⟩ := ih h
        refine ⟨by omega, by omega, ?_, hq⟩
        rw [show q - p = q - (p + 1) + 1 by omega, Mem.slice, List.mem_cons, not_or]
        exact ⟨fun heq => hc heq.symm, by exact_mod_cast hnot⟩

theorem memchr_none {m : Mem} {c : Byte} {p n : Nat} (h : memchr m c p n = none) :
    c ∉ m.slice p n := by
  induction n generalizing p with
  | zero => simp [Mem.slice]
  | succ n ih =>
      rw [memchr] at h
      split at h
      · cases h
      · rename_i hc
        rw [Mem.slice, List.mem_cons, not_or]
        exact ⟨fun heq => hc heq.symm, by exact_mod_cast ih h⟩

/-- Once the table is full nothing more is stored. -/
theorem tokenizeLoop_full {m : Mem} {stop fuel p count : Nat}
    (h : maxNmeaTokens ≤ count) : tokenizeLoop m stop fuel p count = [] := by
  induction fuel generalizing p with
  | zero => rfl
  | succ fuel ih =>
      rw [tokenizeLoop]
      split
      · rw [if_neg (by omega)]; exact ih
      · rfl

/-- The first comma splits the range into the first field and the rest. -/
theorem splitOn_slice_some {m : Mem} {p stop q : Nat}
    (h : memchr m (ch ',') p (stop - p) = some q) :
    (m.slice p (stop - p)).splitOn (ch ',')
      = m.slice p (q - p) :: (m.slice (q + 1 : Nat) (stop - (q + 1))).splitOn (ch ',') := by
  obtain ⟨hle, hlt, hnot, hq⟩ := memchr_some h
  have hsplit : m.slice p (stop - p)
      = m.slice p (q - p) ++ ch ',' :: m.slice (q + 1 : Nat) (stop - (q + 1)) := by
    rw [show stop - p = (q - p) + ((stop - (q + 1)) + 1) by omega, Mem.slice_add, Mem.slice]
    congr 2
    · rw [show ((p : Int) + ((q - p : Nat) : Int)) = q by omega]; exact hq
    · congr 1; omega
  rw [hsplit, List.splitOn_append_cons_self_of_not_mem hnot]

/-- Token `i` of the loop holds field `i` of the remaining body, as far as the
table reaches. The induction follows the rounds of the loop, one field each. -/
theorem tokenizeLoop_getD {m : Mem} {stop fuel p n i : Nat} (hfuel : stop - p ≤ fuel) :
    ((tokenizeLoop m stop fuel p n).getD i .dummy).bytes
      = if i < maxNmeaTokens - n then
          ((m.slice p (stop - p)).splitOn (ch ',')).getD i []
        else [] := by
  induction fuel generalizing p n i with
  | zero =>
      obtain hz : stop - p = 0 := by omega
      rw [hz]
      cases i <;> simp [tokenizeLoop, Mem.slice]
  | succ fuel ih =>
      rw [tokenizeLoop]
      by_cases hp : p < stop
      · rw [if_pos hp]
        by_cases hc : n < maxNmeaTokens
        · simp only [if_pos hc]
          cases hm : memchr m (ch ',') p (stop - p) with
          | none =>
              rw [List.splitOn_eq_singleton (memchr_none hm)]
              cases i with
              | zero => simp [Token.bytes]; omega
              | succ i =>
                  have := ih (p := stop) (n := n + 1) (i := i) (by omega)
                  simp only [Option.getD_none, lt_irrefl, if_false, List.getD_cons_succ, this]
                  cases i <;> simp [Mem.slice]
          | some q =>
              obtain ⟨hle, hlt, -, -⟩ := memchr_some hm
              rw [splitOn_slice_some hm]
              simp only [Option.getD_some, if_pos (show q < stop by omega)]
              cases i with
              | zero => simp [Token.bytes]; omega
              | succ i =>
                  rw [List.getD_cons_succ, List.getD_cons_succ,
                    ih (p := q + 1) (n := n + 1) (by omega)]
                  congr 1
                  exact propext (by omega)
        · rw [if_neg (by omega : ¬i < maxNmeaTokens - n)]
          simp only [if_neg hc]
          rw [tokenizeLoop_full (by omega)]
          rfl
      · obtain hz : stop - p = 0 := by omega
        rw [if_neg hp, hz]
        cases i <;> simp [Mem.slice]

/-- The body of the sentence in `m[p .. stop)`. -/
def sentenceBody (m : Mem) (p stop : Nat) : List Byte :=
  m.slice (bodyStart m p stop) (bodyStop m p stop - bodyStart m p stop)

/-- **The tokenizer splits the body at commas.** Token `i` of the first 32 is
the `i`-th field, empty when there is no such field; no other token is filled. -/
theorem nmeaTokenizerGet_bytes (m : Mem) (p stop i : Nat) :
    (nmeaTokenizerGet (nmeaTokenizerInit m p stop) i).bytes
      = if i < maxNmeaTokens then
          ((sentenceBody m p stop).splitOn (ch ',')).getD i []
        else [] := by
  rw [nmeaTokenizerGet_eq, nmeaTokenizerInit, tokenizeLoop_getD (le_refl _)]
  rfl

/-! ## Numbers -/

/-- The digit loop of `str2int` with `result` so far. -/
def str2intLoop : Int → List Byte → Int
  | result, [] => result
  | result, b :: rest =>
      -- `*p - '0'`; the unsigned comparison rejects negative differences too
      let c := (b.toNat : Int) - 48
      if c < 0 ∨ 10 ≤ c then -1 else str2intLoop (wrap32 (result * 10 + c)) rest

def str2int (s : List Byte) : Int :=
  if s.length = 0 then -1 else str2intLoop 0 s

def IsDigit (b : Byte) : Prop := 48 ≤ b.toNat ∧ b.toNat ≤ 57

instance (b : Byte) : Decidable (IsDigit b) := inferInstanceAs (Decidable (_ ∧ _))

/-- The decimal value of a string of digits, in front of which `acc` stands. -/
def decValue : Nat → List Byte → Nat
  | acc, [] => acc
  | acc, b :: rest => decValue ((b.toNat - 48) + 10 * acc) rest

theorem le_decValue (acc : Nat) (s : List Byte) : acc ≤ decValue acc s := by
  induction s generalizing acc with
  | nil => exact le_refl _
  | cons b s ih =>
      rw [decValue]
      exact le_trans (by omega) (ih _)

theorem str2intLoop_digits {acc : Nat} {s : List Byte} (hs : ∀ b ∈ s, IsDigit b)
    (hlt : decValue acc s < 2 ^ 31) : str2intLoop acc s = decValue acc s := by
  induction s generalizing acc with
  | nil => rfl
  | cons b s ih =>
      obtain ⟨hlo, hhi⟩ := hs b (List.mem_cons_self ..)
      rw [decValue] at hlt ⊢
      have hacc := le_decValue ((b.toNat - 48) + 10 * acc) s
      have hwrap : wrap32 ((acc : Int) * 10 + ((b.toNat : Int) - 48))
          = (((b.toNat - 48) + 10 * acc : Nat) : Int) := by
        rw [wrap32_eq (by omega) (by omega)]
        omega
      rw [str2intLoop, if_neg (by omega), hwrap]
      exact ih (fun c hc => hs c (List.mem_cons_of_mem _ hc)) hlt

/-- `str2int` of a digit string is its value, as long as that is an `int`. -/
theorem str2int_digits {s : List Byte} (hne : s ≠ []) (hs : ∀ b ∈ s, IsDigit b)
    (hlt : decValue 0 s < 2 ^ 31) : str2int s = decValue 0 s := by
  rw [str2int, if_neg (by simpa using hne)]
  exact str2intLoop_digits hs hlt

section Float

variable [CFloat]

open CFloat

/-- `temp` is 16 characters, so longer fields are not converted. -/
def str2float (s : List Byte) : double :=
  if s.length = 0 then literal (-1) 0
  else if s.length ≥ 16 then literal 0 0
  else strtod (s.takeWhile (· ≠ 0))

end Float

end HtcLeo
