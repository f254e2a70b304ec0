/-!
# Numbers of double precision

A float is kept as its 64-bit pattern: a sign, eleven bits of exponent and fifty-two of fraction.
All arithmetic here is exact, on natural numbers.

**Input.** The text of a literal: digits with at most one point among them, or one of the words
`inf`, `infinity` and `nan` in any case.  A literal has neither sign nor exponent.

**Algorithm.** The digits and the power of ten behind them make a fraction.  In units of the
least positive number, `2 ^ -1074`, its size tells how many low bits the pattern cannot hold;
the quotient by that power of two is rounded to the nearest integer, a half to the even one.
Adding the exponent to the rounded quotient gives the pattern, and a carry out of the fraction
raises the exponent as it should.

**Result.** `Binary64.ofLiteral?`, the nearest number, where what is too large is infinite and
what is too small is zero.
-/

namespace LetLang

/-- A number of double precision, as its bit pattern. -/
structure Binary64 where
  bits : UInt64
  deriving DecidableEq, Repr, Inhabited

namespace Binary64

/-- Positive infinity. -/
def infinity : Binary64 :=
  ⟨0x7FF0000000000000⟩

/-- The quiet number that stands for no number. -/
def nan : Binary64 :=
  ⟨0x7FF8000000000000⟩

/-- The quotient to the nearest integer, where a half goes to the even neighbour. -/
def roundDiv (numerator denominator : Nat) : Nat :=
  let quotient := numerator / denominator
  let twice := 2 * (numerator % denominator)
  if twice < denominator ∨ (twice = denominator ∧ quotient % 2 = 0) then
    quotient
  else
    quotient + 1

/-- The number nearest to a fraction that is not negative. -/
def ofFraction (numerator denominator : Nat) : Binary64 :=
  let units := numerator * Nat.pow 2 1074
  let dropped := Nat.log2 (units / denominator) - 52
  let pattern := dropped * Nat.pow 2 52 + roundDiv units (denominator * Nat.pow 2 dropped)
  ⟨UInt64.ofNat (min pattern infinity.bits.toNat)⟩

/-- The number that ASCII digits stand for in base ten. -/
def decimal (digits : List Char) : Nat :=
  digits.foldl (fun value c => 10 * value + (c.toNat - '0'.toNat)) 0

/-- The number that digits with at most one point stand for. -/
def ofDigits? (text : List Char) : Option Binary64 :=
  let whole := text.takeWhile Char.isDigit
  match text.dropWhile Char.isDigit with
  | [] =>
      if whole.isEmpty then none
      else some (ofFraction (decimal whole) 1)
  | '.' :: fraction =>
      if fraction.all Char.isDigit && !(whole ++ fraction).isEmpty then
        some (ofFraction (decimal (whole ++ fraction)) (Nat.pow 10 fraction.length))
      else
        none
  | _ => none

/-- The number that a literal stands for. -/
def ofLiteral? (literal : String) : Option Binary64 :=
  match String.ofList (literal.toList.map Char.toLower) with
  | "inf" | "infinity" => some infinity
  | "nan" => some nan
  | _ => ofDigits? literal.toList

end Binary64

end LetLang
