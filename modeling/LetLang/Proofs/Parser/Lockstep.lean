import LetLang.Proofs.Concrete.First
import LetLang.Proofs.Parser.Embedding

/-!
# The grammar does the same inside a longer text

Begun at two parsers of which the one stands where the other stands, a step of the grammar ends in
what matches.

**Proof.** By induction on the fuel of the inner step; the outer one may have any fuel.  Reading an
expression or a block never stops at a semicolon, so what comes next may be looked at behind them.
-/

namespace LetLang

/-- No operand begins with a semicolon. -/
theorem Handlers.ne_semicolon_of_operand
    {kind : Kind} {handler : OperandHandler} (h : standard.operand kind = some handler) :
    kind ≠ .semicolon := by
  rintro rfl
  cases h

namespace Embedding

open Step Grammar

/-- A step over statements has come to the end of the inner input. -/
def RunsOut {α : Type} (outcome : Outcome α) : Prop :=
  outcome.Meets
    (fun _ ended => ended.stream.tokens = [] ∨ ended.Unclosed)
    (fun diagnostic ended =>
      diagnostic.cause = .unexpectedToken .closeBrace .eof ∨ ended.Unclosed)

/-- The steps of the grammar with a number of units of fuel match those of an outer parser. -/
structure Lockstep (embedding : Embedding) (fuel : Nat) : Prop where
  expression : ∀ fuel' power {inner outer : Parser}, embedding.Links inner outer →
    embedding.Matches (Expr.relocate embedding.place) (· ≠ .semicolon)
      (expression fuel power inner) (expression fuel' power outer)
  operations : ∀ fuel' power left {inner outer : Parser}, embedding.Links inner outer →
    inner.current.kind ≠ .semicolon →
    embedding.Matches (Expr.relocate embedding.place) (· ≠ .semicolon)
      (operations fuel power left inner)
      (operations fuel' power (left.relocate embedding.place) outer)
  operation : ∀ fuel' handler left power {inner outer : Parser}, embedding.Links inner outer →
    inner.current.kind ≠ .semicolon →
    embedding.Matches (Expr.relocate embedding.place) (· ≠ .semicolon)
      (operation fuel handler left power inner)
      (operation fuel' handler (left.relocate embedding.place) power outer)
  operand : ∀ fuel' handler {inner outer : Parser}, embedding.Links inner outer →
    inner.current.kind ≠ .semicolon →
    embedding.Matches (Expr.relocate embedding.place) (· ≠ .semicolon)
      (operand fuel handler inner) (operand fuel' handler outer)
  block : ∀ fuel' {inner outer : Parser}, embedding.Links inner outer →
    inner.current.kind ≠ .semicolon →
    embedding.Matches (Block.relocate embedding.place) (· ≠ .semicolon)
      (block fuel inner) (block fuel' outer)
  blockStatements : ∀ fuel' found {inner outer : Parser}, embedding.Links inner outer →
    embedding.MatchesUnless (fun outcome _ => RunsOut outcome)
      (List.map (Stmt.relocate embedding.place)) (fun kind => kind = .closeBrace ∨ kind = .eof)
      (blockStatements fuel found inner)
      (blockStatements fuel' (found.map (Stmt.relocate embedding.place)) outer)
  statement : ∀ fuel' {inner outer : Parser}, embedding.Links inner outer →
    embedding.Matches (Stmt.relocate embedding.place) (fun _ => True)
      (statement fuel inner) (statement fuel' outer)
  statementBy : ∀ fuel' handler {inner outer : Parser}, embedding.Links inner outer →
    handler ≠ .block →
    embedding.Matches (Stmt.relocate embedding.place) (fun _ => True)
      (statementBy fuel handler inner) (statementBy fuel' handler outer)

variable {embedding : Embedding} {inner outer : Parser} {fuel fuel' : Nat}

section Expressions

theorem expression_lockstep (h : embedding.Lockstep fuel) (power : Power)
    (links : embedding.Links inner outer) :
    embedding.Matches (Expr.relocate embedding.place) (· ≠ .semicolon)
      (expression (fuel + 1) power inner) (expression (fuel' + 1) power outer) := by
  simp only [expression, current_bind, modify_bind, links.current, Token.kind_relocate,
    Token.start_relocate]
  refine matches_nested (links.note _ _) (fun deeper => ?_)
  have same : outer.handlers.operand inner.current.kind =
      inner.handlers.operand inner.current.kind := by
    rw [links.outerHandlers, links.innerHandlers]
  simp only [read_bind]
  cases known : inner.handlers.operand inner.current.kind with
  | none =>
      simp only [Parser.handlers_note, same, known]
      exact matches_fail _ _ deeper
  | some handler =>
      simp only [Parser.handlers_note, same, known]
      rw [links.innerHandlers] at known
      refine matches_bind
        (h.operand fuel' handler deeper (Handlers.ne_semicolon_of_operand known))
        ((onward_of_fuel fuel).operations power) ?_
      intro left innerEnd outerEnd links inside
      exact h.operations fuel' power left links inside

theorem operations_lockstep (h : embedding.Lockstep fuel) (power : Power) (left : Expr)
    (links : embedding.Links inner outer) (inside : inner.current.kind ≠ .semicolon) :
    embedding.Matches (Expr.relocate embedding.place) (· ≠ .semicolon)
      (operations (fuel + 1) power left inner)
      (operations (fuel' + 1) power (left.relocate embedding.place) outer) := by
  simp only [operations, read_bind, links.next inside, Token.kind_relocate]
  by_cases binds : power < inner.next.kind.power
  · have isOperator : inner.advance.current.kind ≠ .semicolon := by
      intro semicolon
      rw [show inner.next.kind = .semicolon from semicolon] at binds
      exact absurd binds (Nat.not_lt_zero _)
    simp only [binds, if_true, read_bind, links.innerHandlers, links.outerHandlers]
    cases Handlers.standard.operator inner.next.kind with
    | none =>
        exact matches_pure rfl links inside
    | some handler =>
        simp only [advance_bind]
        refine matches_bind
          (h.operation fuel' handler left _ (links.advance inside) isOperator)
          ((onward_of_fuel fuel).operations power) ?_
        intro whole innerEnd outerEnd links inside
        exact h.operations fuel' power whole links inside
  · simp only [binds, if_false]
    exact matches_pure rfl links inside

theorem operation_lockstep (h : embedding.Lockstep fuel)
    (handler : OperatorHandler) (left : Expr) (power : Power)
    (links : embedding.Links inner outer) (inside : inner.current.kind ≠ .semicolon) :
    embedding.Matches (Expr.relocate embedding.place) (· ≠ .semicolon)
      (operation (fuel + 1) handler left power inner)
      (operation (fuel' + 1) handler (left.relocate embedding.place) power outer) := by
  simp only [operation, take_bind, links.current, Token.literal_relocate]
  cases handler with
  | binary =>
      refine matches_bind (h.expression fuel' power (links.advance inside))
        (fun _ => onward_pure _) ?_
      intro right innerEnd outerEnd links inside
      exact matches_pure (by rw [Expr.relocate]) links inside
  | binaryLowest =>
      refine matches_bind (h.expression fuel' .lowest (links.advance inside))
        (fun _ => onward_pure _) ?_
      intro right innerEnd outerEnd links inside
      exact matches_pure (by rw [Expr.relocate]) links inside

end Expressions

section Operands

theorem alternative_lockstep (h : embedding.Lockstep fuel)
    {whole whole' : Option Block → Expr}
    (same : ∀ second, whole' (second.map (Block.relocate embedding.place)) =
      (whole second).relocate embedding.place)
    (links : embedding.Links inner outer) (inside : inner.current.kind ≠ .semicolon) :
    embedding.Matches (Expr.relocate embedding.place) (· ≠ .semicolon)
      (alternative (block fuel) whole inner) (alternative (block fuel') whole' outer) := by
  simp only [alternative, read_bind, links.next inside, Token.kind_relocate]
  by_cases isElse : inner.next.kind = .elseWord
  · have atElse : inner.advance.current.kind ≠ .semicolon := by
      rw [show inner.advance.current.kind = .elseWord from isElse]
      decide
    simp only [isElse, if_true, advance_bind]
    refine matches_expectNext_bind (links.advance inside) atElse (fun links opened => ?_)
    refine matches_bind (h.block fuel' links (by rw [opened]; decide)) (fun _ => onward_pure _) ?_
    intro second innerEnd outerEnd links inside
    exact matches_pure (same (some second)) links inside
  · simp only [isElse, if_false]
    exact matches_pure (same none) links inside

theorem branches_lockstep (h : embedding.Lockstep fuel) (token : Token) (condition : Expr)
    (links : embedding.Links inner outer) (inside : inner.current.kind ≠ .semicolon) :
    embedding.Matches (Expr.relocate embedding.place) (· ≠ .semicolon)
      (branches (block fuel) token condition inner)
      (branches (block fuel') (token.relocate embedding.place)
        (condition.relocate embedding.place) outer) := by
  refine matches_expectNext_bind links inside (fun links closed => ?_)
  refine matches_expectNext_bind links (by rw [closed]; decide) (fun links opened => ?_)
  refine matches_bind (h.block fuel' links (by rw [opened]; decide))
    (fun consequence => alternative_onward (onward_of_fuel fuel) _) ?_
  intro consequence innerEnd outerEnd links inside
  refine alternative_lockstep h (fun second => ?_) links inside
  rw [Expr.relocate_conditional]

theorem operand_lockstep (h : embedding.Lockstep fuel) (handler : OperandHandler)
    (links : embedding.Links inner outer) (inside : inner.current.kind ≠ .semicolon) :
    embedding.Matches (Expr.relocate embedding.place) (· ≠ .semicolon)
      (operand (fuel + 1) handler inner) (operand (fuel' + 1) handler outer) := by
  cases handler with
  | identifier =>
      simp only [operand, current_bind, links.current, Token.literal_relocate]
      exact matches_pure (by rw [Expr.relocate]; rfl) links inside
  | integer =>
      simp only [operand, current_bind, links.current, Token.literal_relocate]
      cases Integer.parse inner.current.literal with
      | ok value =>
          exact matches_pure (by rw [Expr.relocate]) links inside
      | error fault =>
          exact matches_fail _ _ links
  | float =>
      simp only [operand, current_bind, links.current, Token.literal_relocate]
      cases Binary64.ofLiteral? inner.current.literal with
      | some value =>
          exact matches_pure (by rw [Expr.relocate]) links inside
      | none =>
          exact matches_fail _ _ links
  | boolean =>
      simp only [operand, current_bind, links.current, Token.kind_relocate]
      exact matches_pure (by rw [Expr.relocate]) links inside
  | unary =>
      simp only [operand, take_bind, links.current, Token.literal_relocate]
      refine matches_bind (h.expression fuel' .unary (links.advance inside))
        (fun _ => onward_pure _) ?_
      intro right innerEnd outerEnd links inside
      exact matches_pure (by rw [Expr.relocate]) links inside
  | group =>
      simp only [operand, advance_bind]
      refine matches_bind (h.expression fuel' .lowest (links.advance inside))
        (fun _ => onward_bind (onward_expectNext _) (fun _ => onward_pure _)) ?_
      intro value innerEnd outerEnd links inside
      refine matches_expectNext_bind links inside (fun links closed => ?_)
      exact matches_pure rfl links (by rw [closed]; decide)
  | conditional =>
      simp only [operand, current_bind, links.current]
      refine matches_expectNext_bind links inside (fun links opened => ?_)
      simp only [advance_bind]
      refine matches_bind
        (h.expression fuel' .lowest (links.advance (by rw [opened]; decide)))
        (branches_onward (onward_of_fuel fuel) _) ?_
      intro condition innerEnd outerEnd links inside
      exact branches_lockstep h _ condition links inside

end Operands

section Statements

theorem block_lockstep (h : embedding.Lockstep fuel)
    (links : embedding.Links inner outer) (inside : inner.current.kind ≠ .semicolon) :
    embedding.Matches (Block.relocate embedding.place) (· ≠ .semicolon)
      (block (fuel + 1) inner) (block (fuel' + 1) outer) := by
  simp only [block, take_bind, links.current]
  rcases h.blockStatements fuel' [] (links.advance inside) with ⟨more, runsOut⟩ | mirrors
  · -- The statements have run out of input before the closing brace, so the block fails.
    refine .inl ⟨more, ?_⟩
    refine meets_bind runsOut ?_ (fun _ _ unclosed => unclosed)
    intro all ended atStop
    simp only [current_bind]
    by_cases atEnd : ended.current.kind = .eof
    · simp only [atEnd, if_true]
      exact .inl rfl
    · simp only [atEnd, if_false]
      rcases atStop with passed | unclosed
      · exact absurd (Parser.current_kind_of_tokens_nil passed) atEnd
      · exact unclosed
  · refine mirrors_bind mirrors ?_
    intro all innerEnd outerEnd links stopped
    simp only [current_bind, links.current, Token.kind_relocate, Token.start_relocate,
      Token.stop_relocate]
    by_cases atEnd : innerEnd.current.kind = .eof
    · simp only [atEnd, if_true]
      exact matches_fail _ _ links
    · simp only [atEnd, if_false]
      refine matches_pure ?_ links ?_
      · rw [Block.relocate, Stmt.relocateAll_eq_map]
        rfl
      · rcases stopped with closed | atEnd'
        · rw [closed]
          decide
        · exact absurd atEnd' atEnd

/-- The loop over the statements of a block goes on behind a token, or it runs out. -/
theorem blockStatements_advance_lockstep (h : embedding.Lockstep fuel) (found : List Stmt)
    (links : embedding.Links inner outer) :
    embedding.MatchesUnless (fun outcome _ => RunsOut outcome)
      (List.map (Stmt.relocate embedding.place)) (fun kind => kind = .closeBrace ∨ kind = .eof)
      (blockStatements fuel found inner.advance)
      (blockStatements fuel' (found.map (Stmt.relocate embedding.place)) outer.advance) := by
  rcases links.advance_cases with links | ⟨_, crosses⟩
  · exact h.blockStatements fuel' found links
  · refine .inl ⟨crosses.more, ?_⟩
    have atEnd := Parser.current_kind_of_tokens_nil crosses.passed
    cases fuel with
    | zero =>
        trivial
    | succ fuel =>
        simp only [blockStatements, current_bind, atEnd, or_true, if_true]
        exact .inl crosses.passed

theorem blockStatements_lockstep (h : embedding.Lockstep fuel) (found : List Stmt)
    (links : embedding.Links inner outer) :
    embedding.MatchesUnless (fun outcome _ => RunsOut outcome)
      (List.map (Stmt.relocate embedding.place)) (fun kind => kind = .closeBrace ∨ kind = .eof)
      (blockStatements (fuel + 1) found inner)
      (blockStatements (fuel' + 1) (found.map (Stmt.relocate embedding.place)) outer) := by
  simp only [blockStatements, current_bind, links.current, Token.kind_relocate]
  by_cases last : inner.current.kind = .closeBrace ∨ inner.current.kind = .eof
  · simp only [last, if_true]
    refine .inr ?_
    rw [← List.map_reverse]
    exact .done links last
  · simp only [last, if_false]
    rcases matches_recovering (h.statement fuel' links) with ⟨more, unclosed⟩ | mirrors
    · -- What the statement has recorded stays recorded, whatever the loop does next.
      refine .inl ⟨more, ?_⟩
      have onward := blockStatements_resume_onward (onward_of_fuel fuel) found
      exact (unclosed_bind unclosed onward).mono
        (fun _ _ recorded => .inr recorded) (fun _ _ failed => failed)
    · refine mirrors_bind mirrors ?_
      rintro (_ | read) innerEnd outerEnd links -
      · simp only [Option.map_none, current_bind, links.current, Token.kind_relocate]
        split
        · exact h.blockStatements fuel' found links
        · exact blockStatements_advance_lockstep h found links
      · exact blockStatements_advance_lockstep h (read :: found) links

theorem statement_lockstep (h : embedding.Lockstep fuel)
    (links : embedding.Links inner outer) :
    embedding.Matches (Stmt.relocate embedding.place) (fun _ => True)
      (statement (fuel + 1) inner) (statement (fuel' + 1) outer) := by
  simp only [statement, current_bind, modify_bind, read_bind, Parser.handlers_note,
    links.innerHandlers, links.outerHandlers, links.current, Token.kind_relocate]
  exact h.statementBy fuel' _ (links.note _ _) (Concrete.statement_ne_block _)

theorem statementBy_lockstep (h : embedding.Lockstep fuel) (handler : StatementHandler)
    (links : embedding.Links inner outer) (notBlock : handler ≠ .block) :
    embedding.Matches (Stmt.relocate embedding.place) (fun _ => True)
      (statementBy (fuel + 1) handler inner) (statementBy (fuel' + 1) handler outer) := by
  cases handler with
  | binding =>
      simp only [statementBy]
      refine matches_expect_bind links (by decide) (fun links => ?_)
      refine matches_expect_bind links (by decide) (fun links => ?_)
      refine matches_expect_bind links (by decide) (fun links => ?_)
      refine matches_bind (h.expression fuel' .lowest links)
        (fun _ => onward_bind (onward_expectNext _) (fun _ => onward_pure _)) ?_
      intro value innerEnd outerEnd links inside
      refine matches_expectNext_bind links inside (fun links _ => ?_)
      exact matches_pure (by rw [Stmt.relocate]; rfl) links trivial
  | returning =>
      simp only [statementBy]
      refine matches_expect_bind links (by decide) (fun links => ?_)
      simp only [current_bind, links.current, Token.kind_relocate]
      split
      · exact matches_pure (by rw [Stmt.relocate]) links trivial
      · refine matches_bind (h.expression fuel' .lowest links)
          (fun _ => onward_bind (onward_expectNext _) (fun _ => onward_pure _)) ?_
        intro value innerEnd outerEnd links inside
        refine matches_expectNext_bind links inside (fun links _ => ?_)
        exact matches_pure (by rw [Stmt.relocate]) links trivial
  | expression =>
      simp only [statementBy, current_bind, links.current]
      refine matches_bind (h.expression fuel' .lowest links) ?_ ?_
      · intro value
        exact onward_bind (onward_read _) (fun next => onward_ite
          (onward_bind onward_advance (fun _ => onward_pure _)) (onward_pure _))
      · intro value innerEnd outerEnd links inside
        simp only [read_bind, links.next inside, Token.kind_relocate]
        split
        · exact matches_pure (by rw [Stmt.relocate]) (links.advance inside) trivial
        · exact matches_pure (by rw [Stmt.relocate]) links trivial
  | block =>
      exact absurd rfl notBlock

end Statements

section Units

/-- Whatever their fuel is, the steps of the grammar match those of an outer parser. -/
theorem lockstep_of_fuel (embedding : Embedding) (fuel : Nat) :
    embedding.Lockstep fuel := by
  induction fuel with
  | zero =>
      exact
        { expression := fun _ _ _ _ _ => .inr (.innerExhausted _)
          operations := fun _ _ _ _ _ _ _ => .inr (.innerExhausted _)
          operation := fun _ _ _ _ _ _ _ _ => .inr (.innerExhausted _)
          operand := fun _ handler _ _ _ _ => by cases handler <;> exact .inr (.innerExhausted _)
          block := fun _ _ _ _ _ => .inr (.innerExhausted _)
          blockStatements := fun _ _ _ _ _ => .inr (.innerExhausted _)
          statement := fun _ _ _ _ => .inr (.innerExhausted _)
          statementBy := fun _ handler _ _ _ _ => by
            cases handler <;> exact .inr (.innerExhausted _) }
  | succ fuel h =>
      constructor
      case expression =>
        rintro (_ | fuel') power inner outer links
        · exact matches_exhausted _
        · exact expression_lockstep h power links
      case operations =>
        rintro (_ | fuel') power left inner outer links inside
        · exact matches_exhausted _
        · exact operations_lockstep h power left links inside
      case operation =>
        rintro (_ | fuel') handler left power inner outer links inside
        · exact matches_exhausted _
        · exact operation_lockstep h handler left power links inside
      case operand =>
        rintro (_ | fuel') handler inner outer links inside
        · cases handler <;> exact matches_exhausted _
        · exact operand_lockstep h handler links inside
      case block =>
        rintro (_ | fuel') inner outer links inside
        · exact matches_exhausted _
        · exact block_lockstep h links inside
      case blockStatements =>
        rintro (_ | fuel') found inner outer links
        · exact matches_exhausted _
        · exact blockStatements_lockstep h found links
      case statement =>
        rintro (_ | fuel') inner outer links
        · exact matches_exhausted _
        · exact statement_lockstep h links
      case statementBy =>
        rintro (_ | fuel') handler inner outer links notBlock
        · cases handler <;> exact matches_exhausted _
        · exact statementBy_lockstep h handler links notBlock

end Units

end Embedding

end LetLang
