import LetLang.Parser.Basic
import LetLang.Parser.Power
import LetLang.Syntax.Tree

/-!
# The grammar

**Input.** A parser, whose handlers decide how a statement, an operand or an operation is read.

**Algorithm.** An expression is an operand followed by operators, each of which takes what has
been read so far for its left operand and reads its right one.  Reading stops before an operator
that does not bind more strongly than the power with which the expression was asked for.  A
statement that fails inside a block is recorded there, and the block goes on behind it.

**Result.** A step for every notion of the grammar.  All of them end at the last token of what
they have read, not behind it.  Their first argument is fuel; every call takes one unit of it.
-/

namespace LetLang
namespace Grammar

/-- The end of a conditional behind its first block, where a second one may follow.  It makes the
whole of the second block, if there is one. -/
def alternative (block : Step Block) (whole : Option Block → Expr) : Step Expr := do
  let next ← Step.read Parser.next
  if next.kind = .elseWord then
    Step.advance
    let _ ← Step.expectNext .openBrace
    let second ← block
    pure (whole (some second))
  else
    pure (whole none)

/-- The end of a conditional behind its condition: the block for which the condition holds, and
where there is one that for which it does not. -/
def branches (block : Step Block) (token : Token) (condition : Expr) : Step Expr := do
  let _ ← Step.expectNext .closeParen
  let _ ← Step.expectNext .openBrace
  let consequence ← block
  alternative block (.conditional token condition consequence)

mutual

/-- An expression whose operators bind more strongly than a power. -/
def expression : Nat → Power → Step Expr
  | 0, _ => Step.outOfFuel
  | fuel + 1, power => do
      let token ← Step.current
      Step.modify (Parser.note (.expressionBegun token))
      Step.nested do
        let handlers ← Step.read Parser.handlers
        match handlers.operand token.kind with
        | none => Step.fail (.noOperand token.kind) token.start
        | some handler =>
            let left ← operand fuel handler
            operations fuel power left

/-- The operations behind an expression whose operators bind more strongly than a power. -/
def operations : Nat → Power → Expr → Step Expr
  | 0, _, _ => Step.outOfFuel
  | fuel + 1, power, left => do
      let token ← Step.read Parser.next
      if power < token.kind.power then
        let handlers ← Step.read Parser.handlers
        match handlers.operator token.kind with
        | none => pure left
        | some handler =>
            Step.advance
            let whole ← operation fuel handler left token.kind.power
            operations fuel power whole
      else
        pure left

/-- The operation whose operator is the current token. -/
def operation : Nat → OperatorHandler → Expr → Power → Step Expr
  | 0, _, _, _ => Step.outOfFuel
  | fuel + 1, handler, left, power => do
      let token ← Step.take
      let right ←
        match handler with
        | .binary => expression fuel power
        | .binaryLowest => expression fuel .lowest
      pure (.binary token token.literal left right)

/-- The operand that begins at the current token. -/
def operand : Nat → OperandHandler → Step Expr
  | 0, _ => Step.outOfFuel
  | _ + 1, .identifier => do
      let token ← Step.current
      pure (.identifier ⟨token, token.literal⟩)
  | _ + 1, .integer => do
      let token ← Step.current
      match Integer.parse token.literal with
      | .ok value => pure (.integer token value)
      | .error fault => Step.fail (.badInteger token.literal fault) token.start
  | _ + 1, .float => do
      let token ← Step.current
      match Binary64.ofLiteral? token.literal with
      | some value => pure (.float token value)
      | none => Step.fail (.badFloat token.literal) token.start
  | _ + 1, .boolean => do
      let token ← Step.current
      pure (.boolean token (token.kind = .trueWord))
  | fuel + 1, .unary => do
      let token ← Step.take
      let right ← expression fuel .unary
      pure (.unary token token.literal right)
  | fuel + 1, .group => do
      Step.advance
      let inner ← expression fuel .lowest
      let _ ← Step.expectNext .closeParen
      pure inner
  | fuel + 1, .conditional => do
      let token ← Step.current
      let _ ← Step.expectNext .openParen
      Step.advance
      let condition ← expression fuel .lowest
      branches (block fuel) token condition

/-- The block whose opening brace is the current token. -/
def block : Nat → Step Block
  | 0 => Step.outOfFuel
  | fuel + 1 => do
      let token ← Step.take
      let statements ← blockStatements fuel []
      let last ← Step.current
      if last.kind = .eof then
        Step.fail (.unexpectedToken .closeBrace .eof) last.start
      else
        pure (.mk token ⟨token.start, last.stop⟩ statements)

/-- The statements up to a closing brace or the end of the input, behind those already found,
the latest of which comes first.  A failed statement that has stopped at a closing brace ends the
block there; one that has stopped elsewhere loses the token it has stopped at. -/
def blockStatements : Nat → List Stmt → Step (List Stmt)
  | 0, _ => Step.outOfFuel
  | fuel + 1, found => do
      let token ← Step.current
      if token.kind = .closeBrace ∨ token.kind = .eof then
        pure found.reverse
      else
        match ← Step.recovering (statement fuel) with
        | some statement =>
            Step.advance
            blockStatements fuel (statement :: found)
        | none =>
            let stopped ← Step.current
            if stopped.kind = .closeBrace then
              blockStatements fuel found
            else
              Step.advance
              blockStatements fuel found

/-- The statement that begins at the current token.  It is an expression unless a handler is
entered for the kind of that token. -/
def statement : Nat → Step Stmt
  | 0 => Step.outOfFuel
  | fuel + 1 => do
      let token ← Step.current
      Step.modify (Parser.note (.statementBegun token))
      let handlers ← Step.read Parser.handlers
      statementBy fuel ((handlers.statement token.kind).getD .expression)

/-- The statement that begins at the current token, as a handler reads it. -/
def statementBy : Nat → StatementHandler → Step Stmt
  | 0, _ => Step.outOfFuel
  | fuel + 1, .binding => do
      let token ← Step.expect .letWord
      let name ← Step.expect .identifier
      let _ ← Step.expect .assign
      let value ← expression fuel .lowest
      let _ ← Step.expectNext .semicolon
      pure (.binding token ⟨name, name.literal⟩ value)
  | fuel + 1, .returning => do
      let token ← Step.expect .returnWord
      let first ← Step.current
      if first.kind = .semicolon then
        pure (.returning token none)
      else
        let value ← expression fuel .lowest
        let _ ← Step.expectNext .semicolon
        pure (.returning token (some value))
  | fuel + 1, .expression => do
      let token ← Step.current
      let value ← expression fuel .lowest
      let next ← Step.read Parser.next
      if next.kind = .semicolon then
        Step.advance
      pure (.expression token value)
  | fuel + 1, .block => do
      let whole ← block fuel
      pure (.block whole)

end

/-- The statements up to the end of the input, behind those already found, the latest of which
comes first.  A failed statement loses the token it has stopped at. -/
def statements : Nat → List Stmt → Step (List Stmt)
  | 0, _ => Step.outOfFuel
  | fuel + 1, found => do
      let token ← Step.current
      if token.kind = .eof then
        pure found.reverse
      else
        let read ← Step.recovering (statement fuel)
        Step.advance
        statements fuel (read.toList ++ found)

end Grammar
end LetLang
