import LetLang.Token.Basic

/-!
# Handlers

What a parser does at a token is decided by three tables over the kinds of tokens: one for the
beginning of a statement, one for the beginning of an operand, and one for an operator behind an
operand.  A table names one of a few ways to go on, its handlers, or none.
-/

namespace LetLang

/-- The ways to read an operand that begins at the current token. -/
inductive OperandHandler
  | identifier
  | integer
  | float
  | boolean
  | unary
  | group
  | conditional
  deriving DecidableEq, Repr

/-- The ways to read an operation whose operator is the current token.  The right operand is read
with the power of the operator, or with the lowest. -/
inductive OperatorHandler
  | binary
  | binaryLowest
  deriving DecidableEq, Repr

/-- The ways to read a statement that begins at the current token. -/
inductive StatementHandler
  | binding
  | returning
  | expression
  | block
  deriving DecidableEq, Repr

/-- The three tables of a parser. -/
structure Handlers where
  statement : Kind → Option StatementHandler
  operand : Kind → Option OperandHandler
  operator : Kind → Option OperatorHandler

namespace Handlers

/-- Tables without entries. -/
def empty : Handlers :=
  { statement := fun _ => none
    operand := fun _ => none
    operator := fun _ => none }

/-- The entries of the language. -/
def standard : Handlers :=
  { statement := fun
      | .letWord => some .binding
      | .returnWord => some .returning
      | _ => none
    operand := fun
      | .identifier => some .identifier
      | .integer => some .integer
      | .float => some .float
      | .trueWord | .falseWord => some .boolean
      | .bang | .minus => some .unary
      | .openParen => some .group
      | .ifWord => some .conditional
      | _ => none
    operator := fun
      | .equal | .notEqual | .less | .greater => some .binary
      | .plus | .minus | .star | .slash => some .binary
      | _ => none }

/-- A table with one entry changed. -/
def enter {α : Type} (table : Kind → Option α) (kind : Kind) (handler : α) : Kind → Option α :=
  fun k => if k = kind then some handler else table k

/-- Let statements that begin with a kind be read by a handler. -/
def setStatement (kind : Kind) (handler : StatementHandler) (handlers : Handlers) : Handlers :=
  { handlers with statement := enter handlers.statement kind handler }

/-- Let operands that begin with a kind be read by a handler. -/
def setOperand (kind : Kind) (handler : OperandHandler) (handlers : Handlers) : Handlers :=
  { handlers with operand := enter handlers.operand kind handler }

/-- Let operations whose operator is of a kind be read by a handler. -/
def setOperator (kind : Kind) (handler : OperatorHandler) (handlers : Handlers) : Handlers :=
  { handlers with operator := enter handlers.operator kind handler }

/-- Put the entries of the language back and leave all others as they are. -/
def restore (handlers : Handlers) : Handlers :=
  { statement := fun kind => standard.statement kind <|> handlers.statement kind
    operand := fun kind => standard.operand kind <|> handlers.operand kind
    operator := fun kind => standard.operator kind <|> handlers.operator kind }

end Handlers

end LetLang
