import LetLang.Token.Basic
import LetLang.Literal.Integer
import LetLang.Text.Quoted

/-!
# Diagnostics

A diagnostic says what is wrong with a source text, and at which byte.  Its cause is data; the
name, the message and the advice that go with it are functions of the cause.
-/

namespace LetLang

/-- What is wrong with a source text. -/
inductive Cause
  | unexpectedToken (expected received : Kind)
  | noOperand (kind : Kind)
  | badInteger (literal : String) (fault : Integer.Fault)
  | badFloat (literal : String)
  | nestingTooDeep (limit : Nat)
  deriving DecidableEq, Repr, Inhabited

namespace Cause

/-- The name of a cause. -/
def name : Cause → String
  | unexpectedToken _ _ => "UnexpectedToken"
  | noOperand _ => "NoPrefixParseFn"
  | badInteger _ _ => "IntegerParseError"
  | badFloat _ => "FloatParseError"
  | nestingTooDeep _ => "NestingTooDeep"

/-- A cause in words.  Literals are quoted. -/
def message : Cause → String
  | unexpectedToken expected received =>
      "expected token type " ++ expected.name ++ ", got " ++ received.name ++ " instead"
  | noOperand kind =>
      "no prefix parse function found for " ++ kind.name
  | badInteger literal _ =>
      "could not parse " ++ Text.Quoted.encode literal ++ " as integer"
  | badFloat literal =>
      "could not parse " ++ Text.Quoted.encode literal ++ " as float"
  | nestingTooDeep limit =>
      "expression nesting exceeds the limit of " ++ toString limit ++ " levels"

/-- Advice on how to mend the text, where there is some.  Literals are shown as they are. -/
def tip? : Cause → Option String
  | unexpectedToken .semicolon _ => some "did you miss a semicolon?"
  | unexpectedToken .closeParen _ =>
      some ("unclosed delimiter, expected `" ++ Kind.closeParen.name ++ "`")
  | unexpectedToken .closeBrace _ =>
      some ("unclosed delimiter, expected `" ++ Kind.closeBrace.name ++ "`")
  | unexpectedToken _ _ => none
  | noOperand .illegal => some "unrecognised character in source"
  | noOperand .eof => some "input ended in the middle of an expression"
  | noOperand _ => none
  | badInteger literal .aboveRange | badInteger literal .belowRange =>
      some ("`" ++ literal ++ "` is above the integer limit of " ++ toString Integer.maximum)
  | badInteger literal .invalidDigit =>
      some ("`" ++ literal ++ "` has a digit outside its base; " ++
        "integers take ASCII digits and a leading `0` means octal")
  | badInteger _ _ => none
  | badFloat _ => none
  | nestingTooDeep _ => some "bind inner parts of the expression to names with `let`"

end Cause

/-- A cause and the byte offset at which it was found. -/
structure Diagnostic where
  cause : Cause
  position : Nat
  deriving DecidableEq, Repr, Inhabited

end LetLang
