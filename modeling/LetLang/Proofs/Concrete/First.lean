import LetLang.Proofs.Concrete.Tree

/-!
# How trees begin and what may follow them

A parser decides by the kind of one token how to go on.  The token with which a tree begins has
the handler that reads trees of its form, and the token behind a tree must be one with which no
tree goes on: no operator that binds strongly enough, and no `else`.
-/

namespace LetLang

theorem TokenOf.kind_eq {kind : Kind} (token : TokenOf [kind]) :
    token.token.kind = kind :=
  List.mem_singleton.mp token.isOf

theorem TokenOf.kind_ne {kind other : Kind} (token : TokenOf [kind]) (h : kind ≠ other) :
    token.token.kind ≠ other := by
  rw [token.kind_eq]
  exact h

namespace Concrete

section Operators

variable {kind : Kind}

theorem operator_of_mem (h : kind ∈ binaryOperators) :
    Handlers.standard.operator kind = some .binary := by
  revert kind
  decide

/-- The kinds that bind an operand before them are the operators. -/
theorem mem_binaryOperators {power : Power} (h : power < kind.power) :
    kind ∈ binaryOperators := by
  have positive : .lowest < kind.power :=
    Power.lt_of_le_of_lt (Power.lowest_le _) h
  revert positive
  cases kind <;> decide

theorem lowest_lt_power (h : kind ∈ binaryOperators) :
    .lowest < kind.power := by
  revert kind
  decide

theorem ne_elseWord_of_mem (h : kind ∈ binaryOperators) :
    kind ≠ .elseWord := by
  revert kind
  decide

theorem ne_eof_of_mem (h : kind ∈ binaryOperators) :
    kind ≠ .eof := by
  revert kind
  decide

end Operators

section First

/-- The way to read the first operand of an expression. -/
def Expr.handler : Expr → OperandHandler
  | .identifier _ => .identifier
  | .integer _ => .integer
  | .float _ => .float
  | .boolean _ => .boolean
  | .unary _ _ => .unary
  | .binary left _ _ => left.handler
  | .group _ _ _ => .group
  | .conditional _ _ _ _ _ _ => .conditional

/-- The way to read a statement. -/
def Stmt.handler : Stmt → StatementHandler
  | .binding _ _ _ _ _ => .binding
  | .returningNothing _ _ => .returning
  | .returning _ _ _ => .returning
  | .expression _ _ => .expression

theorem Expr.exists_tokens_eq :
    ∀ e : Expr, ∃ rest, e.tokens = e.first :: rest
  | .identifier _ => ⟨_, rfl⟩
  | .integer _ => ⟨_, rfl⟩
  | .float _ => ⟨_, rfl⟩
  | .boolean _ => ⟨_, rfl⟩
  | .unary _ _ => ⟨_, rfl⟩
  | .binary left operator right => by
      obtain ⟨rest, h⟩ := left.exists_tokens_eq
      exact ⟨rest ++ operator.token :: right.tokens, by
        simp [Expr.tokens, Expr.first, h]⟩
  | .group _ _ _ => ⟨_, rfl⟩
  | .conditional _ _ _ _ _ _ => ⟨_, rfl⟩

theorem Stmt.exists_tokens_eq (s : Stmt) :
    ∃ rest, s.tokens = s.first :: rest := by
  cases s with
  | binding word name sign value semicolon =>
      exact ⟨_, rfl⟩
  | returningNothing word semicolon =>
      exact ⟨_, rfl⟩
  | returning word value semicolon =>
      exact ⟨_, rfl⟩
  | expression value semicolon =>
      obtain ⟨rest, h⟩ := value.exists_tokens_eq
      exact ⟨_, by simp only [Stmt.tokens, Stmt.first, h]; rfl⟩

theorem Expr.operand_first :
    ∀ e : Expr, Handlers.standard.operand e.first.kind = some e.handler
  | .identifier name => by
      simp [Expr.first, Expr.handler, Handlers.standard, name.kind_eq]
  | .integer literal => by
      simp [Expr.first, Expr.handler, Handlers.standard, literal.kind_eq]
  | .float literal => by
      simp [Expr.first, Expr.handler, Handlers.standard, literal.kind_eq]
  | .boolean word => by
      have either : word.token.kind = .trueWord ∨ word.token.kind = .falseWord := by
        simpa using word.isOf
      rcases either with same | same <;>
        simp [Expr.first, Expr.handler, Handlers.standard, same]
  | .unary operator _ => by
      have either : operator.token.kind = .minus ∨ operator.token.kind = .bang := by
        simpa [unaryOperators] using operator.isOf
      rcases either with same | same <;>
        simp [Expr.first, Expr.handler, Handlers.standard, same]
  | .binary left _ _ => left.operand_first
  | .group opening _ _ => by
      simp [Expr.first, Expr.handler, Handlers.standard, opening.kind_eq]
  | .conditional word _ _ _ _ _ => by
      simp [Expr.first, Expr.handler, Handlers.standard, word.kind_eq]

/-- The kinds with which a statement can begin. -/
def beginnings : List Kind :=
  [.letWord, .returnWord, .identifier, .integer, .float, .trueWord, .falseWord, .minus, .bang,
    .openParen, .ifWord]

theorem mem_beginnings_of_operand
    {kind : Kind} {handler : OperandHandler}
    (h : Handlers.standard.operand kind = some handler) :
    kind ∈ beginnings ∧ Handlers.standard.statement kind = none := by
  cases kind <;> first
    | exact ⟨by decide, rfl⟩
    | simp [Handlers.standard] at h

/-- The kinds with which an operand begins that is read by a handler. -/
def operandKinds : OperandHandler → List Kind
  | .identifier => [.identifier]
  | .integer => [.integer]
  | .float => [.float]
  | .boolean => [.trueWord, .falseWord]
  | .unary => unaryOperators
  | .group => [.openParen]
  | .conditional => [.ifWord]

theorem mem_kinds_of_operand
    {kind : Kind} {handler : OperandHandler}
    (h : Handlers.standard.operand kind = some handler) :
    kind ∈ operandKinds handler := by
  cases kind <;> simp only [Handlers.standard, reduceCtorEq, Option.some.injEq] at h <;>
    subst h <;> decide

/-- No statement of the language is a block. -/
theorem statement_ne_block (kind : Kind) :
    (Handlers.standard.statement kind).getD .expression ≠ .block := by
  cases kind <;> decide

theorem Stmt.first_mem_beginnings (s : Stmt) :
    s.first.kind ∈ beginnings := by
  cases s with
  | binding word name sign value semicolon =>
      rw [Stmt.first, word.kind_eq]
      decide
  | returningNothing word semicolon =>
      rw [Stmt.first, word.kind_eq]
      decide
  | returning word value semicolon =>
      rw [Stmt.first, word.kind_eq]
      decide
  | expression value semicolon =>
      exact (mem_beginnings_of_operand value.operand_first).1

theorem Stmt.statement_first (s : Stmt) :
    (Handlers.standard.statement s.first.kind).getD .expression = s.handler := by
  cases s with
  | binding word name sign value semicolon =>
      simp [Stmt.first, Stmt.handler, Handlers.standard, word.kind_eq]
  | returningNothing word semicolon =>
      simp [Stmt.first, Stmt.handler, Handlers.standard, word.kind_eq]
  | returning word value semicolon =>
      simp [Stmt.first, Stmt.handler, Handlers.standard, word.kind_eq]
  | expression value semicolon =>
      rw [Stmt.first, (mem_beginnings_of_operand value.operand_first).2]
      rfl

end First

section Levels

theorem Expr.level_eq_unary {e : Expr} (h : ¬ e.IsBinary) :
    e.level = .unary := by
  cases e <;> first
    | rfl
    | exact absurd trivial h

theorem Expr.level_le_unary (e : Expr) :
    e.level ≤ .unary := by
  by_cases binary : e.IsBinary
  · cases e with
    | binary left operator right =>
        exact Power.le_of_lt operator.token.kind.power_lt_unary
    | _ => exact binary.elim
  · rw [Expr.level_eq_unary binary]
    exact Power.le_refl _

theorem Expr.lowest_lt_level (e : Expr) :
    .lowest < e.level := by
  by_cases binary : e.IsBinary
  · cases e with
    | binary left operator right =>
        exact lowest_lt_power operator.isOf
    | _ => exact binary.elim
  · rw [Expr.level_eq_unary binary]
    decide

theorem Expr.nesting_pos :
    ∀ e : Expr, 0 < e.nesting
  | .identifier _ => Nat.one_pos
  | .integer _ => Nat.one_pos
  | .float _ => Nat.one_pos
  | .boolean _ => Nat.one_pos
  | .unary _ _ => by
      simp only [Expr.nesting]
      omega
  | .binary _ _ _ => by
      simp only [Expr.nesting]
      omega
  | .group _ _ _ => by
      simp only [Expr.nesting]
      omega
  | .conditional _ _ _ _ _ _ => by
      simp only [Expr.nesting]
      omega

end Levels

section Closes

/-- With tokens that begin so no expression goes on which was asked for with a power: no operator
stands there that binds more strongly, and no `else`. -/
def Closes (power : Power) (rest : List Token) : Prop :=
  ∀ token ∈ rest.head?, token.kind.power ≤ power ∧ token.kind ≠ .elseWord

variable {power : Power} {rest : List Token}

theorem closes_nil :
    Closes power [] := by
  simp [Closes]

theorem closes_cons {token : Token}
    (weak : token.kind.power ≤ power) (other : token.kind ≠ .elseWord) :
    Closes power (token :: rest) := by
  simpa [Closes] using ⟨weak, other⟩

theorem closes_token {kind : Kind} (token : TokenOf [kind])
    (weak : kind.power ≤ power) (other : kind ≠ .elseWord) :
    Closes power (token.token :: rest) := by
  refine closes_cons ?_ (token.kind_ne other)
  rw [token.kind_eq]
  exact weak

theorem Closes.mono {strong : Power}
    (h : Closes power rest) (le : power ≤ strong) :
    Closes strong rest :=
  fun token mem => ⟨Power.le_trans (h token mem).1 le, (h token mem).2⟩

theorem Closes.unary (h : Closes power rest) :
    Closes .unary rest :=
  fun token mem => ⟨Power.le_of_lt token.kind.power_lt_unary, (h token mem).2⟩

/-- With tokens that begin so no statement goes on that is without its semicolon. -/
def Settles (rest : List Token) : Prop :=
  Closes .lowest rest ∧ ∀ token ∈ rest.head?, token.kind ≠ .semicolon

/-- What closes an expression for the power that it was asked for with closes it as a whole. -/
theorem Closes.level {e : Expr}
    (h : Closes power rest) (binds : e.IsBinary → power < e.level) :
    Closes e.level rest := by
  by_cases binary : e.IsBinary
  · exact h.mono (Power.le_of_lt (binds binary))
  · rw [Expr.level_eq_unary binary]
    exact h.unary

end Closes

section Settles

theorem settles_nil :
    Settles [] :=
  ⟨closes_nil, by simp⟩

theorem settles_cons {token : Token} {rest : List Token}
    (weak : token.kind.power ≤ .lowest) (notElse : token.kind ≠ .elseWord)
    (notSemicolon : token.kind ≠ .semicolon) :
    Settles (token :: rest) :=
  ⟨closes_cons weak notElse, by simpa using notSemicolon⟩

/-- A statement that begins with no minus sign settles one before it. -/
theorem settles_of_beginning {kind : Kind} (mem : kind ∈ beginnings) (notMinus : kind ≠ .minus) :
    kind.power ≤ .lowest ∧ kind ≠ .elseWord ∧ kind ≠ .semicolon := by
  revert kind
  decide

/-- No block ends, and no text, where a statement begins. -/
theorem ne_end_of_beginning {kind : Kind} (mem : kind ∈ beginnings) :
    kind ≠ .closeBrace ∧ kind ≠ .eof := by
  revert kind
  decide

/-- What is behind a statement without its semicolon settles it if the statement is parted from
the next one, and the tokens behind them all settle the last one. -/
theorem Stmt.Parted.settles
    {s : Stmt} {following : List Stmt} {rest : List Token}
    (parted : s.Parted following) (last : Settles rest) (isOpen : s.IsOpen) :
    Settles (Stmt.tokensOf following ++ rest) := by
  cases following with
  | nil =>
      exact last
  | cons next others =>
      obtain ⟨more, tokens⟩ := next.exists_tokens_eq
      obtain ⟨weak, notElse, notSemicolon⟩ :=
        settles_of_beginning next.first_mem_beginnings (parted isOpen)
      rw [Stmt.tokensOf, tokens]
      exact settles_cons weak notElse notSemicolon

end Settles

end Concrete
end LetLang
