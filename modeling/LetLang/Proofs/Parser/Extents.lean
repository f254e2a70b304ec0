import LetLang.Proofs.Parser.Source
import LetLang.Proofs.Syntax.Extent

/-!
# The tokens that a tree is read from

Wherever a parser of the language is, and whatever it has recorded, a step that ends in a syntax
tree has passed the tokens of that tree, and no others.

**Proof.** By induction on the fuel.  The loop over operators is given the place where its left
operand begins, and has its tokens behind it.  A statement that failed has passed tokens of which
nothing is left; they are left out of the outline of what is around it.
-/

namespace LetLang

open Outline (Grouping)

namespace Parser

/-- A parser of the language in front of tokens whose closing braces take one byte. -/
structure Plain (parser : Parser) : Prop where
  handlers : parser.handlers = .standard
  braces : ∀ token ∈ parser.stream.tokens,
    token.kind = .closeBrace → token.stop = token.start + 1

variable {begun late parser : Parser}

theorem Plain.extends (h : begun.Plain) (extension : begun.Extends late) :
    late.Plain :=
  ⟨extension.handlers.trans h.handlers,
    fun token mem => h.braces token (extension.mem_tokens mem)⟩

theorem Plain.advance (h : parser.Plain) :
    parser.advance.Plain :=
  h.extends (Extends.advance parser)

/-- A parser has been carried on over some tokens, to the last of them. -/
structure Passes (begun : Parser) (tokens : List Token) (ended : Parser) : Prop where
  tokens : begun.stream.tokens = tokens ++ ended.behind
  stands : ended.stream.tokens ≠ []

namespace Passes

variable {ended : Parser} {token : Token} {tokens others : List Token}

theorem current (notEnd : parser.current.kind ≠ .eof) :
    parser.Passes [parser.current] parser := by
  have here := tokens_of_current notEnd
  exact ⟨here, by simp [here]⟩

/-- The current token is passed first. -/
theorem cons
    (here : begun.stream.tokens = token :: begun.behind)
    (h : begun.advance.Passes tokens ended) :
    begun.Passes (token :: tokens) ended := by
  refine ⟨?_, h.stands⟩
  rw [here, ← tokens_advance, h.tokens]
  rfl

theorem append
    (h : begun.Passes tokens parser) (h' : parser.advance.Passes others ended) :
    begun.Passes (tokens ++ others) ended := by
  refine ⟨?_, h'.stands⟩
  rw [h.tokens, ← tokens_advance, h'.tokens, List.append_assoc]

/-- The token behind is passed last. -/
theorem concat
    (h : begun.Passes tokens parser) (behind : parser.behind = token :: parser.advance.behind) :
    begun.Passes (tokens ++ [token]) parser.advance :=
  h.append ⟨behind, by simp [behind]⟩

end Passes

end Parser

section Conditions

variable (begun ended : Parser)

/-- The tokens from one parser to another are those of an expression. -/
def Expr.IsBetween (value : Expr) : Prop :=
  ∃ tokens, begun.Passes tokens ended ∧ value.Occupies tokens

/-- The tokens from one parser to another are those of a block. -/
def Block.IsBetween (value : Block) : Prop :=
  ∃ tokens, begun.Passes tokens ended ∧ value.Occupies tokens

/-- The tokens from one parser to another are those of a statement. -/
def Stmt.IsBetween (value : Stmt) : Prop :=
  ∃ tokens, begun.Passes tokens ended ∧ Grouping tokens [value.outline]

/-- The tokens from one parser to another are an operator and those of its right operand. -/
def Expr.IsOperationBetween (left value : Expr) : Prop :=
  ∃ right tokens, value = .binary begun.current begun.current.literal left right ∧
    begun.Passes (begun.current :: tokens) ended ∧ right.Occupies tokens

/-- The tokens from one parser up to another are those of some statements, behind those that were
found before. -/
def Stmt.AreBetween (found values : List Stmt) : Prop :=
  ∃ all tokens, found.reverse ++ all = values ∧
    begun.stream.tokens = tokens ++ ended.stream.tokens ∧ Grouping tokens (Stmt.outlines all)

end Conditions

namespace Grammar

open Step
open Concrete (mem_binaryOperators ne_eof_of_mem operator_of_mem mem_kinds_of_operand
  statement_ne_block)

/-- Whatever the steps of the grammar end in with a number of units of fuel, they have passed the
tokens of it. -/
structure Extents (fuel : Nat) : Prop where
  expression : ∀ power {parser : Parser}, parser.Plain →
    (expression fuel power).Yields parser fun value ended => value.IsBetween parser ended
  operations : ∀ power (left : Expr) {begun parser : Parser},
    parser.Plain → left.IsBetween begun parser →
    (operations fuel power left).Yields parser fun value ended => value.IsBetween begun ended
  operation : ∀ left power {parser : Parser}, parser.Plain →
    parser.current.kind ≠ .eof →
    (operation fuel .binary left power).Yields parser fun value ended =>
      Expr.IsOperationBetween parser ended left value
  operand : ∀ handler {parser : Parser}, parser.Plain →
    Handlers.standard.operand parser.current.kind = some handler →
    (operand fuel handler).Yields parser fun value ended => value.IsBetween parser ended
  block : ∀ {parser : Parser}, parser.Plain →
    parser.current.kind = .openBrace →
    (block fuel).Yields parser fun value ended => value.IsBetween parser ended
  blockStatements : ∀ found {parser : Parser}, parser.Plain →
    (blockStatements fuel found).Yields parser fun values ended =>
      (ended.current.kind = .closeBrace ∨ ended.current.kind = .eof) ∧
        Stmt.AreBetween parser ended found values
  statement : ∀ {parser : Parser}, parser.Plain →
    (statement fuel).Yields parser fun value ended => value.IsBetween parser ended
  statementBy : ∀ handler {parser : Parser}, parser.Plain →
    (Handlers.standard.statement parser.current.kind).getD .expression = handler →
    (statementBy fuel handler).Yields parser fun value ended => value.IsBetween parser ended

section Expressions

variable {fuel : Nat} {parser : Parser}

theorem operations_extents (h : Extents fuel) (power : Power) (left : Expr)
    {begun : Parser} (plain : parser.Plain) (onLeft : left.IsBetween begun parser) :
    (operations (fuel + 1) power left).Yields parser fun value ended =>
      value.IsBetween begun ended := by
  refine ((onward_of_fuel _).operations power _).yields ?_
  simp only [operations, read_bind]
  by_cases binds : power < parser.next.kind.power
  · have isOperator := mem_binaryOperators binds
    have behind := Parser.behind_of_next (ne_eof_of_mem isOperator)
    have current : parser.advance.current = parser.next :=
      Parser.current_advance_of_behind behind
    simp only [binds, if_true, read_bind, plain.handlers, operator_of_mem isOperator, advance_bind]
    rw [← current] at isOperator ⊢
    refine yields_bind (h.operation left _ plain.advance (ne_eof_of_mem isOperator)) ?_
    rintro _ atRight extension ⟨right, others, rfl, passed', onRight⟩
    obtain ⟨tokens, passed, onLeft⟩ := onLeft
    exact (h.operations power _ (plain.advance.extends extension)
      ⟨_, passed.append passed', onLeft.binary onRight _ _⟩).meets
  · simp only [binds, if_false]
    exact onLeft

theorem expression_extents (h : Extents fuel) (power : Power) (plain : parser.Plain) :
    (expression (fuel + 1) power).Yields parser fun value ended =>
      value.IsBetween parser ended := by
  refine ((onward_of_fuel _).expression power).yields ?_
  simp only [expression, current_bind, modify_bind]
  refine meets_nested (fun _ => ?_) (fun _ => trivial)
  have inside : Parser.Plain
      { parser.note (.expressionBegun parser.current) with depth := parser.depth + 1 } :=
    ⟨plain.handlers, plain.braces⟩
  simp only [read_bind]
  cases known : parser.handlers.operand parser.current.kind with
  | none =>
      simp only [Parser.handlers_note, known]
      trivial
  | some handler =>
      simp only [Parser.handlers_note, known]
      refine yields_bind (h.operand handler inside (plain.handlers ▸ known)) ?_
      intro left atLeft extension onLeft
      refine (h.operations power left (inside.extends extension) onLeft).meets.imp ?_
      rintro value ended ⟨tokens, passed, onValue⟩
      exact ⟨tokens, ⟨passed.tokens, passed.stands⟩, onValue⟩

theorem operation_extents (h : Extents fuel) (left : Expr) (power : Power) (plain : parser.Plain)
    (notEnd : parser.current.kind ≠ .eof) :
    (operation (fuel + 1) .binary left power).Yields parser fun value ended =>
      Expr.IsOperationBetween parser ended left value := by
  refine ((onward_of_fuel _).operation .binary left _).yields ?_
  simp only [operation, take_bind]
  refine yields_bind (h.expression power plain.advance) ?_
  rintro right ended _ ⟨tokens, passed, onRight⟩
  exact ⟨right, tokens, rfl, passed.cons (Parser.tokens_of_current notEnd), onRight⟩

end Expressions

section Operands

variable {fuel : Nat} {parser : Parser}

/-- The token of a name or a literal is the current one. -/
theorem isBetween_of_leaf
    {e : Expr} {kinds : List Kind} (mem : parser.current.kind ∈ kinds)
    (outline : e.outline = .leaf parser.current)
    (others : .eof ∉ kinds ∧ .openParen ∉ kinds ∧ .closeParen ∉ kinds) :
    e.IsBetween parser parser := by
  obtain ⟨noEnd, noOpening, noClosing⟩ := others
  have ne {kind : Kind} (other : kind ∉ kinds) : parser.current.kind ≠ kind :=
    fun same => other (same ▸ mem)
  exact ⟨[parser.current], .current (ne noEnd),
    Expr.occupies_of_leaf outline (ne noOpening) (ne noClosing)⟩

theorem unary_extents (h : Extents fuel) (plain : parser.Plain)
    (notOpening : parser.current.kind ≠ .openParen)
    (here : parser.stream.tokens = parser.current :: parser.behind) :
    (operand (fuel + 1) .unary parser).Meets
      (fun value ended => value.IsBetween parser ended) (fun _ _ => True) := by
  simp only [operand, take_bind]
  refine yields_bind (h.expression .unary plain.advance) ?_
  rintro right ended _ ⟨tokens, passed, onRight⟩
  exact ⟨_, passed.cons here, onRight.unary _ _ notOpening⟩

theorem group_extents (h : Extents fuel) (plain : parser.Plain)
    (opens : parser.current.kind = .openParen)
    (here : parser.stream.tokens = parser.current :: parser.behind) :
    (operand (fuel + 1) .group parser).Meets
      (fun value ended => value.IsBetween parser ended) (fun _ _ => True) := by
  simp only [operand, advance_bind]
  refine yields_bind (h.expression .lowest plain.advance) ?_
  rintro inner atInner _ ⟨tokens, passed, onInner⟩
  refine meets_expectNext_bind (by decide) (fun closing behind => ?_)
  exact ⟨_, (passed.concat behind).cons here, onInner.group opens closing.kind_eq⟩

/-- The end of a conditional behind its first block. -/
theorem alternative_extents (h : Extents fuel) (whole : Option Block → Expr)
    {begun : Parser} {front : List Token} (plain : parser.Plain)
    (passed : begun.Passes front parser) :
    (alternative (block fuel) whole parser).Meets
      (fun value ended => ∃ second tokens, value = whole second ∧
        begun.Passes (front ++ tokens) ended ∧ Block.EndsOn second tokens)
      (fun _ _ => True) := by
  simp only [alternative, read_bind]
  by_cases isElse : parser.next.kind = .elseWord
  · have behind : parser.behind = parser.next :: parser.advance.behind :=
      Parser.behind_of_next (by rw [isElse]; decide)
    simp only [isElse, if_true, advance_bind]
    refine meets_expectNext_bind (by decide) (fun opening behind' => ?_)
    have current : parser.advance.advance.current = opening.token :=
      Parser.current_advance_of_behind behind'
    refine yields_bind (h.block plain.advance.advance (by rw [current, opening.kind_eq])) ?_
    rintro second ended _ ⟨tokens, passed', onSecond⟩
    exact ⟨some second, _, rfl, passed.append (passed'.cons behind), .present _ onSecond⟩
  · simp only [isElse, if_false]
    exact ⟨none, [], rfl, (List.append_nil front).symm ▸ passed, .absent⟩

/-- The end of a conditional behind its condition. -/
theorem branches_extents (h : Extents fuel) (token : Token) (condition : Expr)
    {begun : Parser} {front : List Token} (plain : parser.Plain)
    (passed : begun.Passes front parser) :
    (branches (block fuel) token condition parser).Meets
      (fun value ended => ∃ first second closing tokens others,
        value = .conditional token condition first second ∧
          begun.Passes (front ++ closing :: tokens ++ others) ended ∧
            Block.Occupies first tokens ∧ Block.EndsOn second others)
      (fun _ _ => True) := by
  refine meets_expectNext_bind (by decide) (fun closing behind => ?_)
  refine meets_expectNext_bind (by decide) (fun opening behind' => ?_)
  have current : parser.advance.advance.current = opening.token :=
    Parser.current_advance_of_behind behind'
  refine yields_bind (h.block plain.advance.advance (by rw [current, opening.kind_eq])) ?_
  rintro first atBrace extension ⟨tokens, passed', onFirst⟩
  refine (alternative_extents h _ (plain.advance.advance.extends extension)
    (passed.append (passed'.cons behind))).imp ?_
  rintro value ended ⟨second, others, rfl, whole, onSecond⟩
  exact ⟨first, second, closing.token, tokens, others, rfl, whole, onFirst, onSecond⟩

theorem conditional_extents (h : Extents fuel) (plain : parser.Plain)
    (notOpening : parser.current.kind ≠ .openParen)
    (here : parser.stream.tokens = parser.current :: parser.behind) :
    (operand (fuel + 1) .conditional parser).Meets
      (fun value ended => value.IsBetween parser ended) (fun _ _ => True) := by
  simp only [operand, current_bind]
  refine meets_expectNext_bind (by decide) (fun opening behind => ?_)
  simp only [advance_bind]
  refine yields_bind (h.expression .lowest plain.advance.advance) ?_
  rintro condition atCondition extension ⟨tokens, passed, onCondition⟩
  refine (branches_extents h _ _ (plain.advance.advance.extends extension)
    ((passed.cons behind).cons here)).imp ?_
  rintro _ ended ⟨first, second, closing, tokens', others, rfl, whole, onFirst, onSecond⟩
  refine ⟨_, ?_, onCondition.conditional onFirst onSecond opening.token closing notOpening⟩
  simpa using whole

theorem operand_extents (h : Extents fuel) (handler : OperandHandler) (plain : parser.Plain)
    (known : Handlers.standard.operand parser.current.kind = some handler) :
    (operand (fuel + 1) handler).Yields parser fun value ended =>
      value.IsBetween parser ended := by
  refine ((onward_of_fuel _).operand handler).yields ?_
  have mem := mem_kinds_of_operand known
  have here : parser.stream.tokens = parser.current :: parser.behind := by
    refine Parser.tokens_of_current ?_
    intro same
    rw [same] at known
    cases known
  have notOpening (other : Handlers.standard.operand .openParen ≠ some handler) :
      parser.current.kind ≠ .openParen :=
    fun same => other (same ▸ known)
  cases handler with
  | identifier =>
      exact isBetween_of_leaf mem rfl (by decide)
  | integer =>
      simp only [operand, current_bind]
      cases Integer.parse parser.current.literal with
      | ok value =>
          exact isBetween_of_leaf mem rfl (by decide)
      | error fault =>
          trivial
  | float =>
      simp only [operand, current_bind]
      cases Binary64.ofLiteral? parser.current.literal with
      | some value =>
          exact isBetween_of_leaf mem rfl (by decide)
      | none =>
          trivial
  | boolean =>
      exact isBetween_of_leaf mem rfl (by decide)
  | unary =>
      exact unary_extents h plain (notOpening (by decide)) here
  | group =>
      exact group_extents h plain (List.mem_singleton.mp mem) here
  | conditional =>
      exact conditional_extents h plain (notOpening (by decide)) here

end Operands

section Statements

variable {fuel : Nat} {parser : Parser}

/-- A value and the semicolon behind it. -/
theorem terminated_extents (h : Extents fuel) (result : Expr → Stmt) (plain : parser.Plain) :
    ((do
      let value ← expression fuel .lowest
      let _ ← Step.expectNext .semicolon
      pure (result value) : Step Stmt) parser).Meets
      (fun value ended => ∃ e tokens semicolon, result e = value ∧
        parser.Passes (tokens ++ [semicolon]) ended ∧ e.Occupies tokens)
      (fun _ _ => True) := by
  refine yields_bind (h.expression .lowest plain) ?_
  rintro e atValue _ ⟨tokens, passed, onValue⟩
  refine meets_expectNext_bind (by decide) (fun semicolon behind => ?_)
  exact ⟨e, tokens, semicolon.token, rfl, passed.concat behind, onValue⟩

theorem binding_extents (h : Extents fuel) (plain : parser.Plain) :
    (statementBy (fuel + 1) .binding parser).Meets
      (fun value ended => value.IsBetween parser ended) (fun _ _ => True) := by
  simp only [statementBy]
  refine meets_expect_bind (by decide) (fun word atWord => ?_)
  refine meets_expect_bind (by decide) (fun name atName => ?_)
  refine meets_expect_bind (by decide) (fun sign atSign => ?_)
  refine (terminated_extents h _ plain.advance.advance.advance).imp ?_
  rintro _ ended ⟨value, tokens, semicolon, rfl, passed, onValue⟩
  exact ⟨_, ((passed.cons atSign).cons atName).cons atWord,
    Stmt.grouping_binding onValue.grouping word.token ⟨name.token, name.token.literal⟩ sign.token
      semicolon⟩

theorem returning_extents (h : Extents fuel) (plain : parser.Plain) :
    (statementBy (fuel + 1) .returning parser).Meets
      (fun value ended => value.IsBetween parser ended) (fun _ _ => True) := by
  simp only [statementBy]
  refine meets_expect_bind (by decide) (fun word atWord => ?_)
  simp only [current_bind]
  by_cases nothing : parser.advance.current.kind = .semicolon
  · have passed := Parser.Passes.current (by rw [nothing]; decide)
    simp only [nothing, if_true]
    exact ⟨_, passed.cons atWord, Stmt.grouping_returningNothing word.token _⟩
  · simp only [nothing, if_false]
    refine (terminated_extents h _ plain.advance).imp ?_
    rintro _ ended ⟨value, tokens, semicolon, rfl, passed, onValue⟩
    exact ⟨_, passed.cons atWord, Stmt.grouping_returning onValue.grouping word.token semicolon⟩

theorem expression_statement_extents (h : Extents fuel) (plain : parser.Plain) :
    (statementBy (fuel + 1) .expression parser).Meets
      (fun value ended => value.IsBetween parser ended) (fun _ _ => True) := by
  simp only [statementBy, current_bind]
  refine yields_bind (h.expression .lowest plain) ?_
  rintro value atValue _ ⟨tokens, passed, onValue⟩
  have grouping := Stmt.grouping_expression onValue.grouping parser.current
  simp only [read_bind]
  by_cases terminated : atValue.next.kind = .semicolon
  · have behind : atValue.behind = atValue.next :: atValue.advance.behind :=
      Parser.behind_of_next (by rw [terminated]; decide)
    simp only [terminated, if_true, advance_bind]
    exact ⟨_, passed.concat behind, grouping.concat atValue.next⟩
  · simp only [terminated, if_false]
    exact ⟨tokens, passed, grouping⟩

theorem statementBy_extents (h : Extents fuel) (handler : StatementHandler) (plain : parser.Plain)
    (known : (Handlers.standard.statement parser.current.kind).getD .expression = handler) :
    (statementBy (fuel + 1) handler).Yields parser fun value ended =>
      value.IsBetween parser ended := by
  refine ((onward_of_fuel _).statementBy handler).yields ?_
  cases handler with
  | binding =>
      exact binding_extents h plain
  | returning =>
      exact returning_extents h plain
  | expression =>
      exact expression_statement_extents h plain
  | block =>
      exact absurd known (statement_ne_block _)

theorem statement_extents (h : Extents fuel) (plain : parser.Plain) :
    (statement (fuel + 1)).Yields parser fun value ended => value.IsBetween parser ended := by
  refine (onward_of_fuel _).statement.yields ?_
  simp only [statement, current_bind, modify_bind, read_bind, Parser.handlers_note, plain.handlers]
  have noted : (parser.note (.statementBegun parser.current)).Plain :=
    ⟨plain.handlers, plain.braces⟩
  refine (h.statementBy _ noted rfl).meets.imp ?_
  rintro value ended ⟨tokens, passed, onValue⟩
  exact ⟨tokens, ⟨passed.tokens, passed.stands⟩, onValue⟩

end Statements

section Blocks

variable {fuel : Nat} {begun late parser : Parser} {found values : List Stmt}

theorem block_extents (h : Extents fuel) (plain : parser.Plain)
    (opens : parser.current.kind = .openBrace) :
    (block (fuel + 1)).Yields parser fun value ended => value.IsBetween parser ended := by
  refine (onward_of_fuel _).block.yields ?_
  simp only [block, take_bind]
  refine yields_bind (h.blockStatements [] plain.advance) ?_
  rintro _ atEnd extension ⟨ends, all, tokens, rfl, passed, onAll⟩
  simp only [current_bind]
  by_cases isEnd : atEnd.current.kind = .eof
  · simp only [isEnd, if_true]
    trivial
  · simp only [isEnd, if_false]
    have closes : atEnd.current.kind = .closeBrace := ends.resolve_right isEnd
    have there := Parser.tokens_of_current isEnd
    have single := (plain.advance.extends extension).braces atEnd.current
      (Parser.mem_of_tokens there) closes
    have inner : parser.advance.Passes (tokens ++ [atEnd.current]) atEnd := by
      refine ⟨?_, by simp [there]⟩
      rw [passed, there]
      simp
    exact ⟨_, inner.cons (Parser.tokens_of_current (by rw [opens]; decide)),
      Block.occupies_of_statements onAll parser.current closes single⟩

/-- A statement may stand before others that have been read. -/
theorem cons_areBetween
    {value : Stmt} {atFirst ended : Parser} (first : value.IsBetween begun atFirst)
    (rest : Stmt.AreBetween atFirst.advance ended (value :: found) values) :
    Stmt.AreBetween begun ended found values := by
  obtain ⟨tokens, passed, onFirst⟩ := first
  obtain ⟨all, others, rfl, passed', onAll⟩ := rest
  refine ⟨value :: all, tokens ++ others, by simp, ?_, onFirst.append onAll⟩
  rw [passed.tokens, ← Parser.tokens_advance, passed', List.append_assoc]

/-- Tokens that were passed without a statement may stand before others that have been read. -/
theorem areBetween_of_extends
    {ended : Parser} (extension : begun.Extends late)
    (rest : Stmt.AreBetween late ended found values) :
    Stmt.AreBetween begun ended found values := by
  obtain ⟨skipped, whole⟩ := extension.tokens
  obtain ⟨all, tokens, same, passed, onAll⟩ := rest
  refine ⟨all, skipped ++ tokens, same, ?_, onAll.skipAll skipped⟩
  rw [← whole, passed, List.append_assoc]

theorem blockStatements_extents (h : Extents fuel) (found : List Stmt) (plain : parser.Plain) :
    (blockStatements (fuel + 1) found).Yields parser fun values ended =>
      (ended.current.kind = .closeBrace ∨ ended.current.kind = .eof) ∧
        Stmt.AreBetween parser ended found values := by
  refine ((onward_of_fuel _).blockStatements found).yields ?_
  simp only [blockStatements, current_bind]
  by_cases ends : parser.current.kind = .closeBrace ∨ parser.current.kind = .eof
  · simp only [ends, if_true]
    exact ⟨ends, [], [], List.append_nil _, rfl, .nil⟩
  · simp only [ends, if_false]
    refine yields_recovering_bind (onward_of_fuel fuel).statement (h.statement plain) ?_ ?_
    · intro value atFirst extension first
      have onward := extension.trans (Parser.Extends.advance atFirst)
      exact (h.blockStatements (value :: found) (plain.extends onward)).imp
        (fun _ _ rest => ⟨rest.2.1, cons_areBetween first rest.2.2⟩)
    · intro diagnostic atFailure extension
      have recorded := extension.trans (Parser.Extends.record diagnostic atFailure)
      have skip (late : Parser) (toLate : parser.Extends late) :
          (blockStatements fuel found late).Meets
            (fun values ended =>
              (ended.current.kind = .closeBrace ∨ ended.current.kind = .eof) ∧
                Stmt.AreBetween parser ended found values)
            (fun _ _ => True) :=
        (h.blockStatements found (plain.extends toLate)).imp
          (fun _ _ rest => ⟨rest.2.1, areBetween_of_extends toLate rest.2.2⟩)
      simp only [current_bind]
      split
      · exact skip _ recorded
      · exact skip _ (recorded.trans (Parser.Extends.advance _))

end Blocks

/-- The steps of the grammar pass the tokens of what they end in, whatever their fuel. -/
theorem extents_of_fuel (fuel : Nat) :
    Extents fuel := by
  induction fuel with
  | zero =>
      exact
        { expression := fun _ _ _ => trivial
          operations := fun _ _ _ _ _ _ => trivial
          operation := fun _ _ _ _ _ => trivial
          operand := fun handler _ _ _ => by cases handler <;> trivial
          block := fun _ _ => trivial
          blockStatements := fun _ _ _ => trivial
          statement := fun _ => trivial
          statementBy := fun handler _ _ _ => by cases handler <;> trivial }
  | succ fuel h =>
      exact
        { expression := fun power _ => expression_extents h power
          operations := fun power left _ _ => operations_extents h power left
          operation := fun left power _ => operation_extents h left power
          operand := fun handler _ => operand_extents h handler
          block := block_extents h
          blockStatements := fun found _ => blockStatements_extents h found
          statement := statement_extents h
          statementBy := fun handler _ => statementBy_extents h handler }

/-- The tokens that were passed up to the end of a program are those of its statements. -/
theorem statements_extents {fuel : Nat} {found : List Stmt} {parser : Parser}
    (plain : parser.Plain) :
    (statements fuel found).Yields parser fun values ended =>
      Stmt.AreBetween parser ended found values := by
  induction fuel generalizing found parser with
  | zero =>
      trivial
  | succ fuel ih =>
      refine (statements_onward _ found).yields ?_
      simp only [statements, current_bind]
      by_cases ends : parser.current.kind = .eof
      · simp only [ends, if_true]
        exact ⟨[], [], List.append_nil _, rfl, .nil⟩
      · simp only [ends, if_false]
        refine yields_recovering_bind (onward_of_fuel fuel).statement
          ((extents_of_fuel fuel).statement plain) ?_ ?_
        · intro value atFirst extension first
          have onward := extension.trans (Parser.Extends.advance atFirst)
          exact (ih (plain.extends onward)).imp
            (fun _ _ rest => cons_areBetween first rest.2)
        · intro diagnostic atFailure extension
          have passed := (extension.trans (Parser.Extends.record diagnostic atFailure)).trans
            (Parser.Extends.advance _)
          exact (ih (plain.extends passed)).imp
            (fun _ _ rest => areBetween_of_extends passed rest.2)

end Grammar
end LetLang
