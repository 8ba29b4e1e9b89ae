import Mathlib.Data.Rat.Floor
import HtcLeo.NmeaToken

/-!
# Exact decimal arithmetic as a floating-point instance

An executable instance of `CFloat` over the rationals. It agrees with the
C types wherever no rounding takes place, in particular on fields that
are short strings of digits; the examples and counterexamples of the
development run the parser on such fields.
-/

namespace HtcLeo

/-- The digits before and after an optional point. -/
def parseDigits (s : List Byte) : Rat :=
  let whole := s.takeWhile (fun b => IsDigit b)
  let frac := (s.dropWhile (fun b => IsDigit b)).tail.takeWhile (fun b => IsDigit b)
  if (s.dropWhile (fun b => IsDigit b)).head? = some (ch '.') then
    decValue 0 whole + decValue 0 frac / 10 ^ frac.length
  else decValue 0 whole

/-- `strtod` on plain decimal notation. -/
def parseDecimal : List Byte → Rat
  | [] => 0
  | b :: s => if b = ch '-' then -parseDigits s else parseDigits (b :: s)

/-- Truncation towards zero. -/
def truncRat (x : Rat) : Int := if 0 ≤ x then ⌊x⌋ else -⌊-x⌋

abbrev decimalFloat : CFloat where
  double := Rat
  float := Rat
  strtod := parseDecimal
  literal n k := (n : Rat) / 10 ^ k
  ofInt n := n
  neg x := -x
  add x y := x + y
  sub x y := x - y
  mul x y := x * y
  div x y := x / y
  floor x := ⌊x⌋
  toInt := truncRat
  toFloat x := x
  ofFloat x := x
  ofByte b := (b.toNat : Rat)
  mulFloat x y := x * y
  isPos x := 0 < x
  zeroDouble := 0
  zeroFloat := 0
  isPos_zeroFloat := by decide
  isPos_minusOne := by decide +kernel

end HtcLeo
