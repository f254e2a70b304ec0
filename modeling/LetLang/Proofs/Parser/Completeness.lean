import LetLang.Proofs.Concrete.First
import LetLang.Proofs.Parser.Limit

/-!
# Every well-formed text is read

A parser that stands before the tokens of a well-formed concrete tree, with something behind them
that does not go on with the tree, reads the whole of it.  It ends in the syntax tree that the
concrete one stands for, directly before what is behind it, and it records nothing.  All this is
`Outcome.Reads`, which also says how many levels are needed for it: the nesting of the tree, and
not one less.

**Proof.** By induction on the concrete tree.  The loop over operators makes a tree that leans to
the left, while a concrete operation is read from its left operand on.  So the induction carries,
next to `Expr.Parses`, which is about an expression as a whole, the statement `Expr.Leads`: to
know what an operand and the loop behind it end in, it is enough to know what the loop ends in
once the expression has become its left operand.
-/

namespace LetLang

/-- A parser of the language before some tokens, with `rest` behind them. -/
structure Parser.Before (parser : Parser) (tokens rest : List Token) : Prop where
  handlers : parser.handlers = .standard
  tokens : parser.stream.tokens = tokens ++ rest
  room : parser.Fits 0

namespace Parser.Before

variable {parser late : Parser} {token : Token} {tokens rest : List Token}

theorem current (h : parser.Before (token :: tokens) rest) :
    parser.current = token :=
  current_of_tokens h.tokens

theorem behind (h : parser.Before (token :: tokens) rest) :
    parser.behind = tokens ++ rest :=
  behind_of_tokens h.tokens

theorem advance (h : parser.Before (token :: tokens) rest) :
    parser.advance.Before tokens rest :=
  ⟨h.handlers, h.behind, h.room⟩

/-- Some of the tokens may be counted among those behind. -/
theorem append
    {more : List Token}
    (h : parser.Before (tokens ++ more) rest) :
    parser.Before tokens (more ++ rest) :=
  ⟨h.handlers, by rw [h.tokens, List.append_assoc], h.room⟩

/-- A parser that has kept all but its place stands before the tokens behind it, once the current
token is passed. -/
theorem resume
    {more rest' : List Token}
    (h : parser.Before tokens rest) (keeps : parser.Keeps late)
    (behind : late.behind = more ++ rest') :
    late.advance.Before more rest' :=
  ⟨keeps.handlers.trans h.handlers, behind, keeps.fits.mpr h.room⟩

end Parser.Before

namespace Concrete

open Step Grammar

section Loop

variable {power : Power} {parser : Parser}

theorem Closes.not_lt_next (h : Closes power parser.behind) :
    ¬ power < parser.next.kind.power := by
  rw [Power.not_lt]
  cases tokens : parser.behind with
  | nil =>
      rw [Parser.next_kind_of_behind_nil tokens]
      exact Power.lowest_le power
  | cons token rest =>
      rw [tokens] at h
      rw [Parser.next_of_behind tokens]
      exact (h token rfl).1

theorem Closes.next_ne_elseWord (h : Closes power parser.behind) :
    parser.next.kind ≠ .elseWord := by
  cases tokens : parser.behind with
  | nil =>
      rw [Parser.next_kind_of_behind_nil tokens]
      decide
  | cons token rest =>
      rw [tokens] at h
      rw [Parser.next_of_behind tokens]
      exact (h token rfl).2

/-- The loop over operators ends before a token that closes the expression. -/
theorem operations_of_closes
    {fuel : Nat} {begun : Parser} {left : LetLang.Expr} {rest : List Token} {levels : Nat}
    (closes : Closes power rest) (fits : begun.Fits levels)
    (behind : parser.behind = rest) (keeps : begun.Keeps parser) :
    (operations fuel power left parser).Reads begun left rest levels := by
  rw [← behind] at closes
  cases fuel with
  | zero =>
      trivial
  | succ fuel =>
      simp only [operations, read_bind, closes.not_lt_next, if_false]
      exact reads_pure fits behind keeps

end Loop

section Statements

/-- An expression is read as a whole, whatever closes it. -/
def Expr.Parses (e : Expr) : Prop :=
  ∀ (fuel : Nat) (power : Power) (rest : List Token) (parser : Parser),
    parser.Before e.tokens rest →
    (e.IsBinary → power < e.level) →
    Closes power rest →
    (expression fuel power parser).Reads parser e.erase rest e.nesting

/-- An expression becomes the left operand of the loop over operators.  The level on which it is
read has been entered already. -/
def Expr.Leads (e : Expr) : Prop :=
  ∀ (fuel : Nat) (power : Power) (rest : List Token) (parser : Parser)
    (levels : Nat) (done : LetLang.Expr → Parser → Prop),
    parser.Before e.tokens rest →
    (e.IsBinary → power < e.level) →
    Closes e.level rest →
    e.nesting - 1 ≤ levels →
    (∀ (fuel : Nat) (ended : Parser),
      parser.Fits (e.nesting - 1) → ended.behind = rest → parser.Keeps ended →
      (operations fuel power e.erase ended).Within parser levels done) →
    ((operand fuel e.handler >>= operations fuel power) parser).Within parser levels done

/-- The operand with which an expression begins is the whole of it. -/
def Expr.IsOperand (e : Expr) : Prop :=
  ∀ (fuel : Nat) (rest : List Token) (parser : Parser),
    parser.Before e.tokens rest →
    Closes .unary rest →
    (operand fuel e.handler parser).Reads parser e.erase rest (e.nesting - 1)

/-- A block is read from brace to brace, whatever follows. -/
def Block.Parses (b : Block) : Prop :=
  ∀ (fuel : Nat) (rest : List Token) (parser : Parser),
    parser.Before b.tokens rest →
    (block fuel parser).Reads parser b.erase rest b.nesting

/-- The end of a conditional is read behind its first block. -/
def Alternative.Parses (a : Alternative) : Prop :=
  ∀ (fuel : Nat) (whole : Option LetLang.Block → LetLang.Expr) (rest : List Token)
    (parser : Parser),
    parser.advance.Before a.tokens rest →
    Closes .unary rest →
    (alternative (block fuel) whole parser).Reads parser (whole a.erase) rest a.nesting

/-- A statement is read as a whole.  What follows one without its semicolon must settle it. -/
def Stmt.Parses (s : Stmt) : Prop :=
  ∀ (fuel : Nat) (rest : List Token) (parser : Parser),
    parser.Before s.tokens rest →
    (s.IsOpen → Settles rest) →
    (statement fuel parser).Reads parser s.erase rest s.nesting

/-- The handler of a statement reads it as a whole. -/
def Stmt.IsHandled (s : Stmt) : Prop :=
  ∀ (fuel : Nat) (rest : List Token) (parser : Parser),
    parser.Before s.tokens rest →
    (s.IsOpen → Settles rest) →
    (statementBy fuel s.handler parser).Reads parser s.erase rest s.nesting

/-- The statements of a block are read up to its closing brace. -/
def Stmt.AllParse (all : List Stmt) : Prop :=
  ∀ (fuel : Nat) (found : List LetLang.Stmt) (closing : TokenOf [.closeBrace])
    (rest : List Token) (parser : Parser),
    parser.Before (Stmt.tokensOf all) (closing.token :: rest) →
    (blockStatements fuel found parser).Within parser (Stmt.nestingOf all)
      (fun read ended =>
        read = found.reverse ++ Stmt.eraseAll all ∧
          ended.stream.tokens = closing.token :: rest ∧ parser.Keeps ended)

end Statements

section Expressions

theorem Expr.current_of_before
    {e : Expr} {parser : Parser} {rest : List Token}
    (before : parser.Before e.tokens rest) :
    parser.current = e.first := by
  obtain ⟨more, h⟩ := e.exists_tokens_eq
  rw [h] at before
  exact before.current

theorem Expr.Leads.parses {e : Expr} (h : e.Leads) :
    e.Parses := by
  intro fuel power rest parser before binds closes
  obtain ⟨inner, levels⟩ : ∃ inner, e.nesting = inner + 1 :=
    ⟨e.nesting - 1, by have := e.nesting_pos; omega⟩
  cases fuel with
  | zero =>
      trivial
  | succ fuel =>
      have handler :
          parser.handlers.operand parser.current.kind = some e.handler := by
        rw [before.handlers, Expr.current_of_before before]
        exact e.operand_first
      simp only [expression, current_bind, modify_bind, levels]
      refine within_nested (fun room => ?_)
      simp only [read_bind, Parser.note, handler]
      refine Outcome.Within.congr
        (h fuel power rest _ inner _ ⟨before.handlers, before.tokens, room⟩ binds
          (closes.level binds) (by omega)
          (fun fuel ended fits behind keeps =>
            operations_of_closes closes (by rwa [levels] at fits) behind keeps)) Iff.rfl ?_
      rintro value ended ⟨rfl, behind, keeps⟩
      exact ⟨rfl, behind, keeps.stop, keeps.handlers,
        by simp [Parser.leave, keeps.depth], keeps.diagnostics⟩

/-- An expression that is one operand becomes the left operand of the loop behind it. -/
theorem Expr.IsOperand.leads {e : Expr}
    (h : e.IsOperand) (notBinary : ¬ e.IsBinary) :
    e.Leads := by
  intro fuel power rest parser levels done before _ closes le onward
  rw [Expr.level_eq_unary notBinary] at closes
  exact within_bind_of_reads (h fuel rest parser before closes) le
    ((onward_of_fuel fuel).operations power) (onward fuel)

/-- The right operand is read with the power of the operator, which it outbinds. -/
theorem Expr.Parses.operation
    {left right : Expr} {operator : TokenOf binaryOperators}
    (h : right.Parses) (binds : operator.token.kind.power < right.level)
    {fuel : Nat} {parser : Parser} {rest : List Token}
    (before : parser.Before (operator.token :: right.tokens) rest)
    (closes : Closes operator.token.kind.power rest) :
    (operation fuel .binary left.erase operator.token.kind.power parser).Reads parser
      (Expr.binary left operator right).erase rest right.nesting := by
  cases fuel with
  | zero =>
      trivial
  | succ fuel =>
      simp only [Grammar.operation, take_bind, before.current]
      refine within_bind_of_reads
        ((h fuel _ rest _ before.advance (fun _ => binds) closes).ofKeeps
          (Parser.Keeps.refl parser).advance)
        (Nat.le_refl _) (fun _ => onward_pure _) ?_
      intro ended fits behind keeps
      exact reads_pure fits behind keeps

theorem Expr.Leads.binary
    {left right : Expr} {operator : TokenOf binaryOperators}
    (onLeft : left.Leads) (onRight : right.Parses)
    (leftBinds : operator.token.kind.power ≤ left.level)
    (rightBinds : operator.token.kind.power < right.level) :
    (Expr.binary left operator right).Leads := by
  intro fuel power rest parser levels done before binds closes le onward
  have binds : power < operator.token.kind.power := binds trivial
  have closes : Closes operator.token.kind.power rest := closes
  have positive := left.nesting_pos
  simp only [Expr.nesting] at le onward
  refine onLeft fuel power _ parser levels done before.append
    (fun _ => Power.lt_of_lt_of_le binds leftBinds)
    (closes_cons leftBinds (ne_elseWord_of_mem operator.isOf)) (by omega) ?_
  intro fuel atLeft fitsLeft behind keeps
  cases fuel with
  | zero =>
      trivial
  | succ fuel =>
      have next : atLeft.next = operator.token := Parser.next_of_behind behind
      have handler :
          atLeft.handlers.operator operator.token.kind = some .binary := by
        rw [keeps.handlers, before.handlers]
        exact operator_of_mem operator.isOf
      simp only [operations, read_bind, next, binds, if_true, handler, advance_bind]
      refine within_bind_of_reads
        ((onRight.operation rightBinds (before.resume keeps behind) closes).ofKeeps keeps.advance)
        (by omega) ((onward_of_fuel fuel).operations power) ?_
      intro ended fitsRight behind keeps
      refine onward fuel ended ?_ behind keeps
      unfold Parser.Fits at *
      omega

end Expressions

section Operands

/-- What one token stands for is read without the parser moving. -/
theorem Expr.isOperand_of_token
    {e : Expr} {token : Token} (single : e.tokens = [token]) (level : e.nesting = 1)
    (stays : ∀ (fuel : Nat) (parser : Parser), parser.current = token →
      operand (fuel + 1) e.handler parser = .done e.erase parser) :
    e.IsOperand := by
  intro fuel rest parser before _
  rw [single] at before
  rw [level]
  cases fuel with
  | zero =>
      cases e.handler <;> trivial
  | succ fuel =>
      rw [stays fuel parser before.current]
      exact .inl ⟨before.room, rfl, before.behind, Parser.Keeps.refl parser⟩

theorem Expr.identifier_isOperand (name : TokenOf [.identifier]) :
    (Expr.identifier name).IsOperand := by
  refine Expr.isOperand_of_token rfl rfl (fun fuel parser current => ?_)
  simp only [Expr.handler, operand, current_bind, current]
  rfl

theorem Expr.integer_isOperand (literal : IntegerLiteral) :
    (Expr.integer literal).IsOperand := by
  refine Expr.isOperand_of_token rfl rfl (fun fuel parser current => ?_)
  simp only [Expr.handler, operand, current_bind, current, literal.converts]
  rfl

theorem Expr.float_isOperand (literal : FloatLiteral) :
    (Expr.float literal).IsOperand := by
  refine Expr.isOperand_of_token rfl rfl (fun fuel parser current => ?_)
  simp only [Expr.handler, operand, current_bind, current, literal.converts]
  rfl

theorem Expr.boolean_isOperand (word : TokenOf [.trueWord, .falseWord]) :
    (Expr.boolean word).IsOperand := by
  refine Expr.isOperand_of_token rfl rfl (fun fuel parser current => ?_)
  simp only [Expr.handler, operand, current_bind, current]
  rfl

theorem Expr.Parses.unary
    {right : Expr} (operator : TokenOf unaryOperators)
    (h : right.Parses) (notBinary : ¬ right.IsBinary) :
    (Expr.unary operator right).IsOperand := by
  intro fuel rest parser before closes
  cases fuel with
  | zero =>
      trivial
  | succ fuel =>
      have before : parser.Before (operator.token :: right.tokens) rest := before
      simp only [Expr.handler, operand, take_bind, before.current, Expr.nesting,
        Nat.add_sub_cancel_left]
      refine within_bind_of_reads
        ((h fuel .unary rest _ before.advance (fun binary => absurd binary notBinary)
          closes).ofKeeps (Parser.Keeps.refl parser).advance)
        (Nat.le_refl _) (fun _ => onward_pure _) ?_
      intro ended fits behind keeps
      exact reads_pure fits behind keeps

theorem Expr.Parses.group
    {inner : Expr} (opening : TokenOf [.openParen]) (closing : TokenOf [.closeParen])
    (h : inner.Parses) :
    (Expr.group opening inner closing).IsOperand := by
  intro fuel rest parser before _
  cases fuel with
  | zero =>
      trivial
  | succ fuel =>
      have inside : parser.advance.Before inner.tokens (closing.token :: rest) :=
        before.advance.append
      have closes : Closes .lowest (closing.token :: rest) :=
        closes_token closing (by decide) (by decide)
      simp only [Expr.handler, operand, advance_bind, Expr.nesting, Nat.add_sub_cancel_left]
      refine within_bind_of_reads
        ((h fuel .lowest _ _ inside (fun _ => inner.lowest_lt_level)
          closes).ofKeeps (Parser.Keeps.refl parser).advance)
        (Nat.le_refl _) (fun _ => onward_bind (onward_expectNext _) (fun _ => onward_pure _)) ?_
      intro atInner fits behind keeps
      rw [expectNext_bind_of_kind (by rw [Parser.next_of_behind behind, closing.kind_eq])]
      exact reads_pure fits (Parser.behind_advance_of_behind behind) keeps.advance

theorem Alternative.absent_parses :
    Alternative.absent.Parses := by
  intro fuel whole rest parser before closes
  have behind : parser.behind = rest := before.tokens
  rw [← behind] at closes
  simp only [alternative, read_bind, closes.next_ne_elseWord, if_false]
  exact reads_pure before.room behind (Parser.Keeps.refl parser)

theorem Block.Parses.present
    {second : Block} (word : TokenOf [.elseWord]) (h : second.Parses) :
    (Alternative.present word second).Parses := by
  intro fuel whole rest parser before _
  obtain ⟨opening, statements, closing⟩ := second
  have atWord : parser.advance.Before (word.token :: (Block.mk opening statements closing).tokens)
      rest := before
  have isElse : parser.next.kind = .elseWord := by
    rw [show parser.next = word.token from atWord.current, word.kind_eq]
  have isBrace : parser.advance.next.kind = .openBrace := by
    rw [show parser.advance.next = opening.token from atWord.advance.current, opening.kind_eq]
  simp only [alternative, read_bind, isElse, if_true, advance_bind]
  rw [expectNext_bind_of_kind isBrace]
  refine within_bind_of_reads
    ((h fuel rest _ atWord.advance).ofKeeps (Parser.Keeps.refl parser).advance.advance)
    (Nat.le_refl _) (fun _ => onward_pure _) ?_
  intro ended fits behind keeps
  exact reads_pure fits behind keeps

/-- The end of a conditional is read behind its condition. -/
theorem Block.Parses.branches
    {consequence : Block} {second : Alternative}
    (onFirst : consequence.Parses) (onSecond : second.Parses)
    {fuel : Nat} {parser : Parser} {rest : List Token}
    (token : Token) (condition : LetLang.Expr) (closing : TokenOf [.closeParen])
    (before : parser.advance.Before
      (closing.token :: (consequence.tokens ++ second.tokens)) rest)
    (closes : Closes .unary rest) :
    (branches (block fuel) token condition parser).Reads parser
      (.conditional token condition consequence.erase second.erase) rest
      (max consequence.nesting second.nesting) := by
  obtain ⟨opening, statements, brace⟩ := consequence
  have isClosing : parser.next.kind = .closeParen := by
    rw [show parser.next = closing.token from before.current, closing.kind_eq]
  have isBrace : parser.advance.next.kind = .openBrace := by
    rw [show parser.advance.next = opening.token from before.advance.current, opening.kind_eq]
  simp only [Grammar.branches]
  rw [expectNext_bind_of_kind isClosing, expectNext_bind_of_kind isBrace]
  refine within_bind_of_reads
    ((onFirst fuel _ _ before.advance.append).ofKeeps
      (Parser.Keeps.refl parser).advance.advance)
    (Nat.le_max_left _ _) (fun _ => alternative_onward (onward_of_fuel fuel) _) ?_
  intro atBrace fitsFirst behind keeps
  have since : parser.advance.Keeps atBrace :=
    ⟨keeps.stop, keeps.handlers, keeps.depth, keeps.diagnostics⟩
  refine ((onSecond fuel _ rest atBrace (before.resume since behind)
    closes).ofKeeps keeps).congr ?_ (fun _ _ read => read)
  unfold Parser.Fits at *
  omega

theorem Expr.Parses.conditional
    {condition : Expr} {consequence : Block} {second : Alternative}
    (word : TokenOf [.ifWord])
    (opening : TokenOf [.openParen]) (closing : TokenOf [.closeParen])
    (onCondition : condition.Parses)
    (onFirst : consequence.Parses) (onSecond : second.Parses) :
    (Expr.conditional word opening condition closing consequence second).IsOperand := by
  intro fuel rest parser before closes
  cases fuel with
  | zero =>
      trivial
  | succ fuel =>
      have before : parser.Before (word.token :: opening.token ::
          (condition.tokens ++ closing.token :: (consequence.tokens ++ second.tokens))) rest :=
        before
      have isOpening : parser.next.kind = .openParen := by
        rw [show parser.next = opening.token from before.advance.current, opening.kind_eq]
      have closed : Closes .lowest
          (closing.token :: (consequence.tokens ++ second.tokens) ++ rest) :=
        closes_token closing (by decide) (by decide)
      simp only [Expr.handler, operand, current_bind, before.current, Expr.nesting,
        Nat.add_sub_cancel_left]
      rw [expectNext_bind_of_kind isOpening, advance_bind]
      refine within_bind_of_reads
        ((onCondition fuel .lowest _ _ before.advance.advance.append
          (fun _ => condition.lowest_lt_level) closed).ofKeeps
            (Parser.Keeps.refl parser).advance.advance)
        (Nat.le_max_left _ _) (branches_onward (onward_of_fuel fuel) word.token) ?_
      intro atCondition fitsCondition behind keeps
      refine ((onFirst.branches onSecond word.token condition.erase closing
        (before.resume keeps behind) closes).ofKeeps keeps).congr ?_ (fun _ _ read => read)
      unfold Parser.Fits at *
      omega

end Operands

section Statements

theorem Stmt.current_of_before
    {s : Stmt} {parser : Parser} {rest : List Token}
    (before : parser.Before s.tokens rest) :
    parser.current = s.first := by
  obtain ⟨more, h⟩ := s.exists_tokens_eq
  rw [h] at before
  exact before.current

theorem Stmt.IsHandled.parses {s : Stmt} (h : s.IsHandled) :
    s.Parses := by
  intro fuel rest parser before settles
  cases fuel with
  | zero =>
      trivial
  | succ fuel =>
      have handler :
          (parser.handlers.statement parser.current.kind).getD .expression = s.handler := by
        rw [before.handlers, Stmt.current_of_before before]
        exact s.statement_first
      simp only [statement, current_bind, modify_bind, read_bind, Parser.handlers_note, handler]
      exact (h fuel rest (parser.note _) ⟨before.handlers, before.tokens, before.room⟩
        settles).ofKeeps ⟨rfl, rfl, rfl, rfl⟩

/-- A value and the semicolon behind it are read. -/
theorem Expr.Parses.terminated
    {value : Expr} (h : value.Parses) (semicolon : TokenOf [.semicolon])
    (result : LetLang.Expr → LetLang.Stmt)
    {fuel : Nat} {parser : Parser} {rest : List Token}
    (before : parser.Before (value.tokens ++ [semicolon.token]) rest) :
    ((do
      let value ← expression fuel .lowest
      let _ ← Step.expectNext .semicolon
      pure (result value) : Step LetLang.Stmt) parser).Reads parser
        (result value.erase) rest value.nesting := by
  have closes : Closes .lowest (semicolon.token :: rest) :=
    closes_token semicolon (by decide) (by decide)
  refine within_bind_of_reads
    (h fuel .lowest _ parser before.append (fun _ => value.lowest_lt_level) closes)
    (Nat.le_refl _) (fun _ => onward_bind (onward_expectNext _) (fun _ => onward_pure _)) ?_
  intro atValue fits behind keeps
  rw [expectNext_bind_of_kind (by rw [Parser.next_of_behind behind, semicolon.kind_eq])]
  exact reads_pure fits (Parser.behind_advance_of_behind behind) keeps.advance

theorem Expr.Parses.binding
    {value : Expr} (word : TokenOf [.letWord]) (name : TokenOf [.identifier])
    (sign : TokenOf [.assign]) (semicolon : TokenOf [.semicolon])
    (h : value.Parses) :
    (Stmt.binding word name sign value semicolon).IsHandled := by
  intro fuel rest parser before _
  cases fuel with
  | zero =>
      trivial
  | succ fuel =>
      have before : parser.Before (word.token :: name.token :: sign.token ::
          (value.tokens ++ [semicolon.token])) rest := before
      simp only [Stmt.handler, statementBy]
      rw [expect_bind_of_kind (by rw [before.current, word.kind_eq]),
        expect_bind_of_kind (by rw [before.advance.current, name.kind_eq]),
        expect_bind_of_kind (by rw [before.advance.advance.current, sign.kind_eq]),
        before.current, before.advance.current]
      exact (h.terminated semicolon _ before.advance.advance.advance).ofKeeps
        (Parser.Keeps.refl parser).advance.advance.advance

theorem Stmt.returningNothing_isHandled
    (word : TokenOf [.returnWord]) (semicolon : TokenOf [.semicolon]) :
    (Stmt.returningNothing word semicolon).IsHandled := by
  intro fuel rest parser before _
  cases fuel with
  | zero =>
      trivial
  | succ fuel =>
      have before : parser.Before [word.token, semicolon.token] rest := before
      have isSemicolon : parser.advance.current.kind = .semicolon := by
        rw [before.advance.current, semicolon.kind_eq]
      simp only [Stmt.handler, statementBy]
      rw [expect_bind_of_kind (by rw [before.current, word.kind_eq]), before.current]
      simp only [current_bind, isSemicolon, if_true]
      exact reads_pure before.room before.advance.behind (Parser.Keeps.refl _).advance

theorem Expr.Parses.returning
    {value : Expr} (word : TokenOf [.returnWord]) (semicolon : TokenOf [.semicolon])
    (h : value.Parses) :
    (Stmt.returning word value semicolon).IsHandled := by
  intro fuel rest parser before _
  cases fuel with
  | zero =>
      trivial
  | succ fuel =>
      have before : parser.Before (word.token :: (value.tokens ++ [semicolon.token])) rest :=
        before
      have notSemicolon : parser.advance.current.kind ≠ .semicolon := by
        rw [Expr.current_of_before before.advance.append]
        intro same
        have first := (mem_beginnings_of_operand value.operand_first).1
        rw [same] at first
        exact absurd first (by decide)
      simp only [Stmt.handler, statementBy]
      rw [expect_bind_of_kind (by rw [before.current, word.kind_eq]), before.current]
      simp only [current_bind, notSemicolon, if_false]
      exact (h.terminated semicolon _ before.advance).ofKeeps (Parser.Keeps.refl parser).advance

theorem Expr.Parses.expression
    {value : Expr} (semicolon : Option (TokenOf [.semicolon]))
    (h : value.Parses) :
    (Stmt.expression value semicolon).IsHandled := by
  intro fuel rest parser before settles
  cases fuel with
  | zero =>
      trivial
  | succ fuel =>
      have current : parser.current = value.first := Stmt.current_of_before before
      have before : parser.Before value.tokens
          ((semicolon.map TokenOf.token).toList ++ rest) := before.append
      have closes : Closes .lowest ((semicolon.map TokenOf.token).toList ++ rest) := by
        cases semicolon with
        | none =>
            exact (settles trivial).1
        | some semicolon =>
            exact closes_token semicolon (by decide) (by decide)
      simp only [Stmt.handler, statementBy, current_bind, current]
      refine within_bind_of_reads
        (h fuel .lowest _ parser before (fun _ => value.lowest_lt_level) closes)
        (Nat.le_refl _)
        (fun _ => onward_bind (onward_read _) (fun _ =>
          onward_ite (onward_bind onward_advance (fun _ => onward_pure _)) (onward_pure _))) ?_
      intro atValue fits behind keeps
      cases semicolon with
      | none =>
          have ends : atValue.next.kind ≠ .semicolon := by
            cases rest with
            | nil =>
                rw [Parser.next_kind_of_behind_nil behind]
                decide
            | cons token rest =>
                rw [Parser.next_of_behind behind]
                exact (settles trivial).2 token rfl
          simp only [read_bind, ends, if_false]
          exact reads_pure fits behind keeps
      | some semicolon =>
          have isSemicolon : atValue.next.kind = .semicolon := by
            rw [Parser.next_of_behind behind, semicolon.kind_eq]
          simp only [read_bind, isSemicolon, if_true, advance_bind]
          exact reads_pure fits (Parser.behind_advance_of_behind behind) keeps.advance

end Statements

section Blocks

/-- There is nothing to recover from where a statement is read. -/
theorem Stmt.Parses.recovering
    {s : Stmt} (h : s.Parses)
    {fuel : Nat} {parser : Parser} {rest : List Token}
    (before : parser.Before s.tokens rest) (settles : s.IsOpen → Settles rest) :
    (Step.recovering (statement fuel) parser).Within parser s.nesting
      (fun read ended => read = some s.erase ∧ ended.behind = rest ∧ parser.Keeps ended) := by
  refine within_recovering ((h fuel rest parser before settles).congr Iff.rfl ?_)
  rintro value ended ⟨rfl, behind, keeps⟩
  exact ⟨rfl, behind, keeps⟩

theorem Stmt.allParse_nil :
    Stmt.AllParse [] := by
  intro fuel found closing rest parser before
  have before : parser.Before (closing.token :: []) rest :=
    ⟨before.handlers, before.tokens, before.room⟩
  cases fuel with
  | zero =>
      trivial
  | succ fuel =>
      have isBrace : parser.current.kind = .closeBrace := by
        rw [before.current, closing.kind_eq]
      simp only [blockStatements, current_bind, isBrace, true_or, if_true]
      exact .inl ⟨before.room, by simp [Stmt.eraseAll], before.tokens, Parser.Keeps.refl parser⟩

theorem Stmt.Parses.allParse_cons
    {s : Stmt} {following : List Stmt}
    (onFirst : s.Parses) (onFollowing : Stmt.AllParse following)
    (parted : s.Parted following) :
    Stmt.AllParse (s :: following) := by
  intro fuel found closing rest parser before
  have before : parser.Before s.tokens
      (Stmt.tokensOf following ++ closing.token :: rest) := before.append
  have notSemicolon : closing.token.kind ≠ .semicolon := closing.kind_ne (by decide)
  have settles : Settles (closing.token :: rest) :=
    ⟨closes_token closing (by decide) (by decide), by simpa using notSemicolon⟩
  cases fuel with
  | zero =>
      trivial
  | succ fuel =>
      obtain ⟨notBrace, notEnd⟩ := ne_end_of_beginning s.first_mem_beginnings
      rw [← Stmt.current_of_before before] at notBrace notEnd
      simp only [blockStatements, current_bind, notBrace, notEnd, or_self, if_false]
      refine within_bind (onFirst.recovering before (parted.settles settles))
        (Nat.le_max_left _ _)
        (blockStatements_resume_onward (onward_of_fuel fuel) found) ?_
      rintro read ended fits ⟨rfl, behind, keeps⟩
      simp only [advance_bind]
      refine (onFollowing fuel (s.erase :: found) closing rest ended.advance
        (before.resume keeps behind)).congr ?_ ?_
      · have depth : ended.advance.depth = parser.depth := keeps.depth
        simp only [Parser.Fits, Stmt.nestingOf] at *
        omega
      · rintro value last ⟨rfl, tokens, since⟩
        exact ⟨by simp [Stmt.eraseAll], tokens, keeps.trans since.ofAdvance⟩

theorem Stmt.AllParse.block
    {statements : List Stmt} (h : Stmt.AllParse statements)
    (opening : TokenOf [.openBrace]) (closing : TokenOf [.closeBrace]) :
    (Block.mk opening statements closing).Parses := by
  intro fuel rest parser before
  have before : parser.Before
      (opening.token :: (Stmt.tokensOf statements ++ [closing.token])) rest := before
  cases fuel with
  | zero =>
      trivial
  | succ fuel =>
      simp only [Grammar.block, take_bind, before.current]
      refine within_bind ((h fuel [] closing rest _ before.advance.append).congr
        (Parser.Keeps.refl parser).advance.fits (fun _ _ read => read))
        (Nat.le_refl _)
        (fun _ => onward_bind (onward_read _) (fun _ =>
          onward_ite (onward_fail _ _) (onward_pure _))) ?_
      rintro read ended fits ⟨rfl, tokens, keeps⟩
      have current : ended.current = closing.token := Parser.current_of_tokens tokens
      have notEnd : closing.token.kind ≠ .eof := closing.kind_ne (by decide)
      simp only [current_bind, current, notEnd, if_false, List.reverse_nil, List.nil_append]
      exact reads_pure fits (Parser.behind_of_tokens tokens) keeps.ofAdvance

end Blocks

section Trees

mutual

theorem Expr.leads :
    ∀ e : Expr, e.WellFormed → e.Leads
  | .identifier name, _ => (Expr.identifier_isOperand name).leads id
  | .integer literal, _ => (Expr.integer_isOperand literal).leads id
  | .float literal, _ => (Expr.float_isOperand literal).leads id
  | .boolean word, _ => (Expr.boolean_isOperand word).leads id
  | .unary operator right, ⟨notBinary, wellFormed⟩ =>
      ((right.leads wellFormed).parses.unary operator notBinary).leads id
  | .binary left _ right, ⟨leftBinds, rightBinds, leftWell, rightWell⟩ =>
      (left.leads leftWell).binary (right.leads rightWell).parses leftBinds rightBinds
  | .group opening inner closing, wellFormed =>
      ((inner.leads wellFormed).parses.group opening closing).leads id
  | .conditional word opening condition closing consequence second,
      ⟨onCondition, onFirst, onSecond⟩ =>
      ((condition.leads onCondition).parses.conditional word opening closing
        (consequence.parses onFirst) (second.parses onSecond)).leads id

theorem Alternative.parses :
    ∀ a : Alternative, a.WellFormed → a.Parses
  | .absent, _ => Alternative.absent_parses
  | .present word second, wellFormed => (second.parses wellFormed).present word

theorem Block.parses :
    ∀ b : Block, b.WellFormed → b.Parses
  | .mk opening statements closing, wellFormed =>
      (Stmt.allParse statements wellFormed).block opening closing

theorem Stmt.parses :
    ∀ s : Stmt, s.WellFormed → s.Parses
  | .binding word name sign value semicolon, wellFormed =>
      ((value.leads wellFormed).parses.binding word name sign semicolon).parses
  | .returningNothing word semicolon, _ =>
      (Stmt.returningNothing_isHandled word semicolon).parses
  | .returning word value semicolon, wellFormed =>
      ((value.leads wellFormed).parses.returning word semicolon).parses
  | .expression value semicolon, wellFormed =>
      ((value.leads wellFormed).parses.expression semicolon).parses

theorem Stmt.allParse :
    ∀ all : List Stmt, Stmt.AllWellFormed all → Stmt.AllParse all
  | [], _ => Stmt.allParse_nil
  | first :: following, ⟨onFirst, parted, onFollowing⟩ =>
      (first.parses onFirst).allParse_cons (Stmt.allParse following onFollowing) parted

end

end Trees

section Programs

/-- The statements of a program are read up to the end of the input. -/
theorem Stmt.statements_within
    {all : List Stmt} (wellFormed : Stmt.AllWellFormed all)
    {fuel : Nat} {found : List LetLang.Stmt} {parser : Parser}
    (before : parser.Before (Stmt.tokensOf all) []) :
    (statements fuel found parser).Within parser (Stmt.nestingOf all)
      (fun read ended =>
        read = found.reverse ++ Stmt.eraseAll all ∧ parser.Keeps ended) := by
  induction all generalizing fuel found parser with
  | nil =>
      have none : parser.stream.tokens = [] := before.tokens
      cases fuel with
      | zero =>
          trivial
      | succ fuel =>
          simp only [statements, current_bind, Parser.current_kind_of_tokens_nil none, if_true]
          exact .inl ⟨before.room, by simp [Stmt.eraseAll], Parser.Keeps.refl parser⟩
  | cons s following ih =>
      obtain ⟨wellFormed, parted, wellFormedRest⟩ := wellFormed
      have before : parser.Before s.tokens (Stmt.tokensOf following ++ []) := before.append
      cases fuel with
      | zero =>
          trivial
      | succ fuel =>
          obtain ⟨_, notEnd⟩ := ne_end_of_beginning s.first_mem_beginnings
          rw [← Stmt.current_of_before before] at notEnd
          simp only [statements, current_bind, notEnd, if_false]
          refine within_bind
            ((s.parses wellFormed).recovering before (parted.settles settles_nil))
            (Nat.le_max_left _ _)
            (fun _ => onward_bind onward_advance (fun _ => statements_onward fuel _)) ?_
          rintro read ended fits ⟨rfl, behind, keeps⟩
          simp only [advance_bind]
          refine (ih wellFormedRest (before.resume keeps behind)).congr ?_ ?_
          · have depth : ended.advance.depth = parser.depth := keeps.depth
            simp only [Parser.Fits, Stmt.nestingOf] at *
            omega
          · rintro value last ⟨rfl, since⟩
            exact ⟨by simp [Stmt.eraseAll], keeps.trans since.ofAdvance⟩

end Programs
end Concrete
end LetLang
