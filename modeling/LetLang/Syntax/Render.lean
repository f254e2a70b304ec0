import LetLang.Syntax.Tree

/-!
# The text of a syntax tree

**Input.** A syntax tree.

**Result.** Its text, in which every operation stands in parentheses of its own, so that the text
shows how the operators bind.  Literals and names are written as their tokens are, bindings and
returns end in a semicolon, and a block has one space before every statement and before its
closing brace.
-/

namespace LetLang

mutual

/-- The text of an expression. -/
def Expr.render : Expr → String
  | .identifier name => name.text
  | .integer token _ => token.literal
  | .float token _ => token.literal
  | .boolean token _ => token.literal
  | .unary _ operator right =>
      "(" ++ operator ++ right.render ++ ")"
  | .binary _ operator left right =>
      "(" ++ left.render ++ operator ++ right.render ++ ")"
  | .conditional token condition consequence none =>
      token.literal ++ " (" ++ condition.render ++ ") " ++ consequence.render
  | .conditional token condition consequence (some alternative) =>
      token.literal ++ " (" ++ condition.render ++ ") " ++ consequence.render ++
        " else " ++ alternative.render

/-- The text of a block. -/
def Block.render : Block → String
  | .mk _ _ statements => "\x7b" ++ Stmt.renderSpaced statements ++ " \x7d"

/-- The text of a statement. -/
def Stmt.render : Stmt → String
  | .binding token name value =>
      token.literal ++ " " ++ name.text ++ " = " ++ value.render ++ ";"
  | .returning token none => token.literal ++ ";"
  | .returning token (some value) =>
      token.literal ++ " " ++ value.render ++ ";"
  | .expression _ value => value.render
  | .block inner => inner.render

/-- The texts of some statements, each behind a space. -/
def Stmt.renderSpaced : List Stmt → String
  | [] => ""
  | first :: rest => " " ++ first.render ++ Stmt.renderSpaced rest

end

/-- The text of a program: its statements one behind the other. -/
def Program.render (program : Program) : String :=
  String.join (program.statements.map Stmt.render)

end LetLang
