import LetLang.Token.Basic
import LetLang.Literal.Binary64

/-!
# Syntax trees

A program is a list of statements.  Every node keeps the token it is named by: a literal or a
name its own, an operation its operator, a statement and a conditional the word they begin with,
and a block its opening brace.  Parentheses that only group leave no node.
-/

namespace LetLang

/-- A name with its token. -/
structure Identifier where
  token : Token
  text : String
  deriving DecidableEq, Repr, Inhabited

mutual

/-- An expression.  A conditional is an expression: its branches are blocks. -/
inductive Expr
  | identifier (name : Identifier)
  | integer (token : Token) (value : Int)
  | float (token : Token) (value : Binary64)
  | boolean (token : Token) (value : Bool)
  | unary (token : Token) (operator : String) (right : Expr)
  | binary (token : Token) (operator : String) (left right : Expr)
  | conditional
      (token : Token) (condition : Expr)
      (consequence : Block) (alternative : Option Block)

/-- Statements between braces, with the bytes from the one brace to the other. -/
inductive Block
  | mk (token : Token) (span : Span) (statements : List Stmt)

/-- A statement. -/
inductive Stmt
  | binding (token : Token) (name : Identifier) (value : Expr)
  | returning (token : Token) (value : Option Expr)
  | expression (token : Token) (value : Expr)
  | block (inner : Block)

end

/-- The statements of a source text, in order. -/
structure Program where
  statements : List Stmt

namespace Block

/-- The opening brace of a block. -/
def token : Block → Token
  | mk token _ _ => token

/-- The bytes of a block, its braces included. -/
def span : Block → Span
  | mk _ span _ => span

/-- The statements of a block. -/
def statements : Block → List Stmt
  | mk _ _ statements => statements

end Block

namespace Expr

/-- The token an expression is named by. -/
def token : Expr → Token
  | identifier name => name.token
  | integer token _ => token
  | float token _ => token
  | boolean token _ => token
  | unary token _ _ => token
  | binary token _ _ _ => token
  | conditional token _ _ _ => token

/-- The bytes of an expression, from its first token to its last.  Parentheses around the whole
are not counted. -/
def span : Expr → Span
  | identifier name => name.token.span
  | integer token _ => token.span
  | float token _ => token.span
  | boolean token _ => token.span
  | unary token _ right => ⟨token.start, right.span.stop⟩
  | binary _ _ left right => ⟨left.span.start, right.span.stop⟩
  | conditional token _ consequence alternative =>
      ⟨token.start, (alternative.getD consequence).span.stop⟩

end Expr

namespace Stmt

/-- The token a statement is named by. -/
def token : Stmt → Token
  | binding token _ _ => token
  | returning token _ => token
  | expression token _ => token
  | block inner => inner.token

/-- The bytes of a statement.  The semicolon that ends it is not counted. -/
def span : Stmt → Span
  | binding token _ value => ⟨token.start, value.span.stop⟩
  | returning token (some value) => ⟨token.start, value.span.stop⟩
  | returning token none => token.span
  | expression _ value => value.span
  | block inner => inner.span

end Stmt

namespace Program

/-- The text of the token that the first statement is named by; empty without statements. -/
def tokenLiteral (program : Program) : String :=
  match program.statements with
  | [] => ""
  | first :: _ => first.token.literal

end Program

end LetLang
