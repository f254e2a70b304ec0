import LetLang.Literal.Integer
import LetLang.Parser.Handlers
import LetLang.Parser.Power
import LetLang.Syntax.Tree

/-!
# Concrete syntax

A concrete tree keeps every token of the text it stands for: parentheses that only group, the
braces of a block, and the semicolons that end statements.  A token is stored together with the
proof that its kind is one that may stand there, and a number together with its value, so that a
tree whose tokens are out of place cannot be built.

What the constructors leave open is said by `WellFormed`: how the operators bind, and where a
statement may do without its semicolon.

* `tokens` is the text of a tree, token by token.
* `erase` is the syntax tree that it stands for.
* `nesting` counts the expressions that have to be read one inside the other.
-/

namespace LetLang

/-- A token of one of some kinds. -/
structure TokenOf (kinds : List Kind) where
  token : Token
  isOf : token.kind ∈ kinds

namespace Concrete

/-- The operators that stand before an operand. -/
def unaryOperators : List Kind :=
  [.minus, .bang]

/-- The operators that stand between two operands. -/
def binaryOperators : List Kind :=
  [.plus, .minus, .star, .slash, .equal, .notEqual, .less, .greater]

/-- The token of an integer, and the number that its text converts to. -/
structure IntegerLiteral extends TokenOf [.integer] where
  value : Int
  converts : Integer.parse token.literal = .ok value

/-- The token of a float, and the number that its text converts to. -/
structure FloatLiteral extends TokenOf [.float] where
  value : Binary64
  converts : Binary64.ofLiteral? token.literal = some value

mutual

/-- An expression with its tokens. -/
inductive Expr
  | identifier (name : TokenOf [.identifier])
  | integer (literal : IntegerLiteral)
  | float (literal : FloatLiteral)
  | boolean (word : TokenOf [.trueWord, .falseWord])
  | unary (operator : TokenOf unaryOperators) (right : Expr)
  | binary (left : Expr) (operator : TokenOf binaryOperators) (right : Expr)
  | group
      (opening : TokenOf [.openParen]) (inner : Expr)
      (closing : TokenOf [.closeParen])
  | conditional
      (word : TokenOf [.ifWord])
      (opening : TokenOf [.openParen]) (condition : Expr)
      (closing : TokenOf [.closeParen])
      (consequence : Block) (alternative : Alternative)

/-- What may follow the first block of a conditional. -/
inductive Alternative
  | absent
  | present (word : TokenOf [.elseWord]) (block : Block)

/-- A block with its braces. -/
inductive Block
  | mk
      (opening : TokenOf [.openBrace]) (statements : List Stmt)
      (closing : TokenOf [.closeBrace])

/-- A statement with its tokens.  Only an expression may be without its semicolon. -/
inductive Stmt
  | binding
      (word : TokenOf [.letWord]) (name : TokenOf [.identifier])
      (sign : TokenOf [.assign]) (value : Expr)
      (semicolon : TokenOf [.semicolon])
  | returningNothing
      (word : TokenOf [.returnWord]) (semicolon : TokenOf [.semicolon])
  | returning
      (word : TokenOf [.returnWord]) (value : Expr)
      (semicolon : TokenOf [.semicolon])
  | expression (value : Expr) (semicolon : Option (TokenOf [.semicolon]))

end

section Tokens

mutual

/-- The tokens of an expression, in order. -/
def Expr.tokens : Expr → List Token
  | .identifier name => [name.token]
  | .integer literal => [literal.token]
  | .float literal => [literal.token]
  | .boolean word => [word.token]
  | .unary operator right => operator.token :: right.tokens
  | .binary left operator right =>
      left.tokens ++ operator.token :: right.tokens
  | .group opening inner closing =>
      opening.token :: (inner.tokens ++ [closing.token])
  | .conditional word opening condition closing consequence alternative =>
      word.token :: opening.token ::
        (condition.tokens ++
          closing.token :: (consequence.tokens ++ alternative.tokens))

/-- The tokens of an alternative, in order. -/
def Alternative.tokens : Alternative → List Token
  | .absent => []
  | .present word block => word.token :: block.tokens

/-- The tokens of a block, in order. -/
def Block.tokens : Block → List Token
  | .mk opening statements closing =>
      opening.token :: (Stmt.tokensOf statements ++ [closing.token])

/-- The tokens of a statement, in order. -/
def Stmt.tokens : Stmt → List Token
  | .binding word name sign value semicolon =>
      word.token :: name.token :: sign.token ::
        (value.tokens ++ [semicolon.token])
  | .returningNothing word semicolon => [word.token, semicolon.token]
  | .returning word value semicolon =>
      word.token :: (value.tokens ++ [semicolon.token])
  | .expression value semicolon =>
      value.tokens ++ (semicolon.map TokenOf.token).toList

/-- The tokens of some statements, in order. -/
def Stmt.tokensOf : List Stmt → List Token
  | [] => []
  | first :: rest => first.tokens ++ Stmt.tokensOf rest

end

/-- The first token of an expression. -/
def Expr.first : Expr → Token
  | .identifier name => name.token
  | .integer literal => literal.token
  | .float literal => literal.token
  | .boolean word => word.token
  | .unary operator _ => operator.token
  | .binary left _ _ => left.first
  | .group opening _ _ => opening.token
  | .conditional word _ _ _ _ _ => word.token

/-- The first token of a statement. -/
def Stmt.first : Stmt → Token
  | .binding word _ _ _ _ => word.token
  | .returningNothing word _ => word.token
  | .returning word _ _ => word.token
  | .expression value _ => value.first

end Tokens

section Erasure

mutual

/-- The syntax tree of an expression. -/
def Expr.erase : Expr → LetLang.Expr
  | .identifier name => .identifier ⟨name.token, name.token.literal⟩
  | .integer literal => .integer literal.token literal.value
  | .float literal => .float literal.token literal.value
  | .boolean word => .boolean word.token (word.token.kind = .trueWord)
  | .unary operator right =>
      .unary operator.token operator.token.literal right.erase
  | .binary left operator right =>
      .binary operator.token operator.token.literal left.erase right.erase
  | .group _ inner _ => inner.erase
  | .conditional word _ condition _ consequence alternative =>
      .conditional word.token condition.erase consequence.erase alternative.erase

/-- The syntax tree of an alternative, if there is one. -/
def Alternative.erase : Alternative → Option LetLang.Block
  | .absent => none
  | .present _ block => some block.erase

/-- The syntax tree of a block, which covers the bytes from brace to brace. -/
def Block.erase : Block → LetLang.Block
  | .mk opening statements closing =>
      .mk opening.token ⟨opening.token.start, closing.token.stop⟩
        (Stmt.eraseAll statements)

/-- The syntax tree of a statement. -/
def Stmt.erase : Stmt → LetLang.Stmt
  | .binding word name _ value _ =>
      .binding word.token ⟨name.token, name.token.literal⟩ value.erase
  | .returningNothing word _ => .returning word.token none
  | .returning word value _ => .returning word.token (some value.erase)
  | .expression value _ => .expression value.first value.erase

/-- The syntax trees of some statements. -/
def Stmt.eraseAll : List Stmt → List LetLang.Stmt
  | [] => []
  | first :: rest => first.erase :: Stmt.eraseAll rest

end

end Erasure

section WellFormed

/-- How strongly an expression holds together: as strongly as its operator binds, if it has one
between two operands, and otherwise as strongly as a unary operator. -/
def Expr.level : Expr → Power
  | .binary _ operator _ => operator.token.kind.power
  | _ => .unary

/-- An operation with two operands that does not stand in parentheses. -/
def Expr.IsBinary : Expr → Prop
  | .binary _ _ _ => True
  | _ => False

/-- A statement without its semicolon. -/
def Stmt.IsOpen : Stmt → Prop
  | .expression _ none => True
  | _ => False

/-- Where a statement is without its semicolon, no minus sign may follow: it would be taken for
an operator between the two statements. -/
def Stmt.Parted (statement : Stmt) : List Stmt → Prop
  | [] => True
  | next :: _ => statement.IsOpen → next.first.kind ≠ .minus

mutual

/-- The operators of an expression bind as its tree says, and its blocks are well formed. -/
def Expr.WellFormed : Expr → Prop
  | .identifier _ => True
  | .integer _ => True
  | .float _ => True
  | .boolean _ => True
  | .unary _ right => ¬ right.IsBinary ∧ right.WellFormed
  | .binary left operator right =>
      operator.token.kind.power ≤ left.level ∧
        operator.token.kind.power < right.level ∧
          left.WellFormed ∧ right.WellFormed
  | .group _ inner _ => inner.WellFormed
  | .conditional _ _ condition _ consequence alternative =>
      condition.WellFormed ∧ consequence.WellFormed ∧ alternative.WellFormed

/-- The block of an alternative is well formed, if there is one. -/
def Alternative.WellFormed : Alternative → Prop
  | .absent => True
  | .present _ block => block.WellFormed

/-- The statements of a block are well formed. -/
def Block.WellFormed : Block → Prop
  | .mk _ statements _ => Stmt.AllWellFormed statements

/-- The value of a statement is well formed, if it has one. -/
def Stmt.WellFormed : Stmt → Prop
  | .binding _ _ _ value _ => value.WellFormed
  | .returningNothing _ _ => True
  | .returning _ value _ => value.WellFormed
  | .expression value _ => value.WellFormed

/-- Some statements are well formed, and each of them is parted from the next. -/
def Stmt.AllWellFormed : List Stmt → Prop
  | [] => True
  | first :: rest =>
      first.WellFormed ∧ first.Parted rest ∧ Stmt.AllWellFormed rest

end

end WellFormed

section Nesting

mutual

/-- How many expressions have to be read one inside the other, this one included.  The left
operand of an operator is read on the level of the operation itself. -/
def Expr.nesting : Expr → Nat
  | .identifier _ => 1
  | .integer _ => 1
  | .float _ => 1
  | .boolean _ => 1
  | .unary _ right => 1 + right.nesting
  | .binary left _ right => max left.nesting (1 + right.nesting)
  | .group _ inner _ => 1 + inner.nesting
  | .conditional _ _ condition _ consequence alternative =>
      1 + max condition.nesting (max consequence.nesting alternative.nesting)

/-- The nesting of the block of an alternative. -/
def Alternative.nesting : Alternative → Nat
  | .absent => 0
  | .present _ block => block.nesting

/-- The greatest nesting of the statements of a block. -/
def Block.nesting : Block → Nat
  | .mk _ statements _ => Stmt.nestingOf statements

/-- The nesting of the value of a statement, which is zero if it has none. -/
def Stmt.nesting : Stmt → Nat
  | .binding _ _ _ value _ => value.nesting
  | .returningNothing _ _ => 0
  | .returning _ value _ => value.nesting
  | .expression value _ => value.nesting

/-- The greatest nesting of some statements. -/
def Stmt.nestingOf : List Stmt → Nat
  | [] => 0
  | first :: rest => max first.nesting (Stmt.nestingOf rest)

end

end Nesting

/-- The statements of a text, in order. -/
structure Program where
  statements : List Stmt

namespace Program

/-- The tokens of a program, in order. -/
def tokens (program : Program) : List Token :=
  Stmt.tokensOf program.statements

/-- The syntax tree of a program. -/
def erase (program : Program) : LetLang.Program :=
  ⟨Stmt.eraseAll program.statements⟩

/-- The statements of a program are well formed, and each of them is parted from the next. -/
def WellFormed (program : Program) : Prop :=
  Stmt.AllWellFormed program.statements

end Program

end Concrete
end LetLang
