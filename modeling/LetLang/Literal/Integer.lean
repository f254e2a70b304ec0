/-!
# Integer literals

**Input.** The text of a literal.

**Algorithm.** The start of the text gives the base: sixteen, eight or two behind `0x`, `0o` or
`0b` in either case, eight behind any other leading zero, and ten otherwise.  One sign may stand
before the digits.  The digits are read from the left, and the first one that has no value in the
base, or that takes the number out of range, settles the outcome.

**Result.** `Integer.parse`, the number, which lies between `-2 ^ 63` and `2 ^ 63 - 1`, or the
fault of the literal.
-/

namespace LetLang
namespace Integer

/-- What can be wrong with the text of an integer.  No literal has the fault `zero`, which stands
for a zero where none is allowed. -/
inductive Fault
  | empty
  | invalidDigit
  | aboveRange
  | belowRange
  | zero
  deriving DecidableEq, Repr, Inhabited

/-- A fault in words. -/
def Fault.message : Fault → String
  | empty => "cannot parse integer from empty string"
  | invalidDigit => "invalid digit found in string"
  | aboveRange => "number too large to fit in target type"
  | belowRange => "number too small to fit in target type"
  | zero => "number would be zero for non-zero type"

/-- The greatest integer. -/
def maximum : Nat :=
  Nat.pow 2 63 - 1

/-- The base of a literal, and the part of it that holds the sign and the digits. -/
def baseAndDigits : List Char → Nat × List Char
  | '0' :: 'x' :: cs => (16, cs)
  | '0' :: 'X' :: cs => (16, cs)
  | '0' :: 'o' :: cs => (8, cs)
  | '0' :: 'O' :: cs => (8, cs)
  | '0' :: 'b' :: cs => (2, cs)
  | '0' :: 'B' :: cs => (2, cs)
  | '0' :: c :: cs => (8, c :: cs)
  | cs => (10, cs)

/-- The value of an ASCII digit or letter, where letters of either case follow on nine. -/
def digitValue? (c : Char) : Option Nat :=
  if '0' ≤ c ∧ c ≤ '9' then some (c.toNat - '0'.toNat)
  else if 'a' ≤ c ∧ c ≤ 'z' then some (c.toNat - 'a'.toNat + 10)
  else if 'A' ≤ c ∧ c ≤ 'Z' then some (c.toNat - 'A'.toNat + 10)
  else none

/-- The value of a digit in a base. -/
def digit? (base : Nat) (c : Char) : Option Nat :=
  (digitValue? c).filter (· < base)

/-- Read digits behind those that make `value`, where no number may exceed `limit`. -/
def magnitude (base limit : Nat) (overflow : Fault) :
    Nat → List Char → Except Fault Nat
  | value, [] => .ok value
  | value, c :: cs =>
      match digit? base c with
      | none => .error .invalidDigit
      | some d =>
          if limit < value * base + d then .error overflow
          else magnitude base limit overflow (value * base + d) cs

/-- Read the digits of a number that is not negative. -/
def positive (base : Nat) (digits : List Char) : Except Fault Int :=
  (magnitude base maximum .aboveRange 0 digits).map Int.ofNat

/-- Read the digits of a number behind a minus sign, which reaches one further from zero. -/
def negative (base : Nat) (digits : List Char) : Except Fault Int :=
  (magnitude base (maximum + 1) .belowRange 0 digits).map fun n => -Int.ofNat n

/-- Read an optional sign and digits in a base.  A sign alone is taken for a digit. -/
def signed (base : Nat) : List Char → Except Fault Int
  | [] => .error .empty
  | '+' :: c :: cs => positive base (c :: cs)
  | '-' :: c :: cs => negative base (c :: cs)
  | cs => positive base cs

/-- The number that a literal stands for. -/
def parse (literal : String) : Except Fault Int :=
  let (base, digits) := baseAndDigits literal.toList
  signed base digits

end Integer
end LetLang
