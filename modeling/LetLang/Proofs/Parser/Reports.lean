import LetLang.Proofs.Concrete.First
import LetLang.Proofs.Literal.Faults
import LetLang.Proofs.Parser.Ahead

/-!
# What steps report

Some steps look at the current token before they go on, and so may find fault with it.  The others
look at the next token at the earliest.  In either case no step finds fault behind the next token
of the parser that it leaves, and steps that follow another one are of the second sort, or they
begin behind a token that has been passed.  This is why the diagnostics of a text come in the order
of the text, however many statements are still being read when one is recorded.

A failure is recorded as it stands by whoever records it.  So the conditions below count the
diagnostic that a step fails with among those recorded.
-/

namespace LetLang

namespace Cause

/-- What a cause says is so of a token: the token is of the kind that was met where another one was
expected, or that begins no operand, or it is a number whose text has the fault. -/
def HoldsOf : Cause → Token → Prop
  | unexpectedToken expected received, token => received = token.kind ∧ expected ≠ received
  | noOperand kind, token => kind = token.kind ∧ Handlers.standard.operand kind = none
  | badInteger literal fault, token =>
      token.kind = .integer ∧ literal = token.literal ∧
        Integer.parse literal = .error fault ∧ (fault = .invalidDigit ∨ fault = .aboveRange)
  | badFloat literal, token =>
      token.kind = .float ∧ literal = token.literal ∧ Binary64.ofLiteral? literal = none
  | nestingTooDeep limit, _ => limit = 100

end Cause

/-- A diagnostic is at the beginning of a token, and what it says is so of the token. -/
structure Diagnostic.Describes (diagnostic : Diagnostic) (token : Token) : Prop where
  position : diagnostic.position = token.start
  holds : diagnostic.cause.HoldsOf token

namespace Parser

/-- A parser that has been carried on with some more diagnostics.  They are in the order of the
text, begin at an offset and end with the next token, and each of them describes a token. -/
structure Reports (begun ended : Parser) (floor : Nat) : Prop where
  extension : begun.Extends ended
  reached : floor ≤ ended.next.start
  recorded : ∃ added, ended.diagnostics.toList = begun.diagnostics.toList ++ added ∧
    added.Pairwise (fun diagnostic later => diagnostic.position ≤ later.position) ∧
      ∀ diagnostic ∈ added,
        (floor ≤ diagnostic.position ∧ diagnostic.position ≤ ended.next.start) ∧
          ∃ token ∈ begun.ahead, diagnostic.Describes token

namespace Reports

variable {first second third : Parser} {floor : Nat}

theorem refl (parser : Parser) (reached : floor ≤ parser.next.start) :
    parser.Reports parser floor :=
  ⟨Extends.refl parser, reached, [], by simp, .nil, by simp⟩

/-- What is reported from the next token on comes behind what was reported before. -/
theorem trans
    (early : first.Reports second floor) (late : second.Reports third second.next.start) :
    first.Reports third floor := by
  obtain ⟨added, whole, ordered, sound⟩ := early.recorded
  obtain ⟨added', whole', ordered', sound'⟩ := late.recorded
  refine ⟨early.extension.trans late.extension, Nat.le_trans early.reached late.reached,
    added ++ added', by rw [whole', whole, List.append_assoc], ?_, ?_⟩
  · refine List.pairwise_append.mpr ⟨ordered, ordered', ?_⟩
    intro diagnostic mem later mem'
    exact Nat.le_trans (sound diagnostic mem).1.2 (sound' later mem').1.1
  · intro diagnostic mem
    rcases List.mem_append.mp mem with mem | mem
    · obtain ⟨⟨above, below⟩, described⟩ := sound diagnostic mem
      exact ⟨⟨above, Nat.le_trans below late.reached⟩, described⟩
    · obtain ⟨⟨above, below⟩, token, ahead, describes⟩ := sound' diagnostic mem
      exact ⟨⟨Nat.le_trans early.reached above, below⟩,
        token, early.extension.ahead.subset ahead, describes⟩

theorem mono {floor' : Nat} (h : first.Reports second floor) (lower : floor' ≤ floor) :
    first.Reports second floor' := by
  obtain ⟨added, whole, ordered, sound⟩ := h.recorded
  refine ⟨h.extension, Nat.le_trans lower h.reached, added, whole, ordered, ?_⟩
  intro diagnostic mem
  obtain ⟨⟨above, below⟩, described⟩ := sound diagnostic mem
  exact ⟨⟨Nat.le_trans lower above, below⟩, described⟩

/-- A step may have begun earlier, where nothing has been recorded since. -/
theorem ofExtends
    (extension : first.Extends second) (same : second.diagnostics = first.diagnostics)
    (h : second.Reports third floor) :
    first.Reports third floor := by
  obtain ⟨added, whole, ordered, sound⟩ := h.recorded
  refine ⟨extension.trans h.extension, h.reached, added, by rw [whole, same], ordered, ?_⟩
  intro diagnostic mem
  obtain ⟨between, token, ahead, describes⟩ := sound diagnostic mem
  exact ⟨between, token, extension.ahead.subset ahead, describes⟩

theorem ofAdvance (h : first.advance.Reports second floor) :
    first.Reports second floor :=
  ofExtends (Extends.advance first) rfl h

/-- Finding fault with the current token or with the next one is a report. -/
theorem record {cause : Cause} {token : Token}
    (ahead : token ∈ first.ahead) (near : token.start ≤ first.next.start)
    (holds : cause.HoldsOf token) :
    first.Reports (first.record ⟨cause, token.start⟩) token.start := by
  refine ⟨Extends.record _ _, near, [⟨cause, token.start⟩], by simp [Parser.record],
    List.pairwise_singleton _ _, ?_⟩
  intro diagnostic mem
  obtain rfl := List.mem_singleton.mp mem
  exact ⟨⟨Nat.le_refl _, near⟩, token, ahead, rfl, holds⟩

end Reports

end Parser

namespace Step

variable {α β : Type} {parser : Parser} {floor : Nat}

/-- However a step ends, what it has recorded, with the diagnostic that it fails with, is reported
from an offset on. -/
def Reports (step : Step α) (parser : Parser) (floor : Nat) : Prop :=
  (step parser).Meets
    (fun _ ended => parser.Reports ended floor)
    (fun diagnostic ended => parser.Reports (ended.record diagnostic) floor)

/-- What looks at the next token at the earliest may be taken to look at the current one. -/
theorem Reports.fresh {step : Step α}
    (h : step.Reports parser parser.next.start) (regular : parser.Regular) :
    step.Reports parser parser.current.start :=
  h.mono (fun _ _ reports => reports.mono regular.ordered.current_le_next)
    (fun _ _ reports => reports.mono regular.ordered.current_le_next)

theorem reports_pure (value : α) (parser : Parser) :
    (pure value : Step α).Reports parser parser.next.start :=
  Parser.Reports.refl parser (Nat.le_refl _)

theorem reports_fail {cause : Cause}
    (regular : parser.Regular) (holds : cause.HoldsOf parser.current) :
    (fail cause parser.current.start : Step α).Reports parser parser.current.start :=
  Parser.Reports.record (Parser.current_mem_ahead parser) regular.ordered.current_le_next holds

/-- What follows a step looks at the next token at the earliest. -/
theorem reports_bind
    {step : Step α} {next : α → Step β}
    (regular : parser.Regular) (first : step.Reports parser floor)
    (rest : ∀ value (ended : Parser), ended.Regular →
      (next value).Reports ended ended.next.start) :
    (step >>= next).Reports parser floor := by
  refine meets_bind first ?_ (fun _ _ reports => reports)
  intro value ended reports
  exact (rest value ended (regular.extends reports.extension)).mono
    (fun _ _ late => reports.trans late) (fun _ _ late => reports.trans late)

/-- Behind the current token a step may look at what has become the current one. -/
theorem reports_advance
    {next : Step β} (rest : next.Reports parser.advance parser.advance.current.start) :
    (advance >>= fun _ => next).Reports parser parser.next.start :=
  Outcome.Meets.mono rest (fun _ _ reports => reports.ofAdvance)
    (fun _ _ reports => reports.ofAdvance)

theorem reports_take
    {next : Token → Step β}
    (rest : (next parser.current).Reports parser.advance parser.advance.current.start) :
    (take >>= next).Reports parser parser.next.start :=
  Outcome.Meets.mono rest (fun _ _ reports => reports.ofAdvance)
    (fun _ _ reports => reports.ofAdvance)

theorem reports_expect_bind
    {kind : Kind} {next : Token → Step β} (regular : parser.Regular)
    (rest : (next parser.current).Reports parser.advance parser.advance.current.start) :
    (expect kind >>= next).Reports parser parser.current.start := by
  by_cases same : parser.current.kind = kind
  · unfold Reports
    rw [expect_bind_of_kind same]
    exact (reports_advance rest).fresh regular
  · unfold Reports
    rw [expect_bind_of_ne same]
    exact reports_fail (α := β) regular ⟨rfl, fun expected => same expected.symm⟩

theorem reports_expectNext_bind
    {kind : Kind} {next : Token → Step β}
    (rest : (next parser.next).Reports parser.advance parser.advance.current.start) :
    (expectNext kind >>= next).Reports parser parser.next.start := by
  by_cases same : parser.next.kind = kind
  · unfold Reports
    rw [expectNext_bind_of_kind same]
    exact reports_advance rest
  · unfold Reports
    rw [expectNext_bind_of_ne same]
    exact Parser.Reports.record (Parser.next_mem_ahead parser) (Nat.le_refl _)
      ⟨rfl, fun expected => same expected.symm⟩

theorem reports_nested
    {step : Step α} (regular : parser.Regular)
    (inside : ∀ inner : Parser, inner.Regular → inner.current = parser.current →
      step.Reports inner inner.current.start) :
    (nested step).Reports parser parser.current.start := by
  have deeper : Parser.Regular { parser with depth := parser.depth + 1 } :=
    regular.keep rfl rfl
  -- Only the depth differs within, and it is given back at the end.
  have leave (ended : Parser)
      (h : Parser.Reports { parser with depth := parser.depth + 1 } ended parser.current.start) :
      parser.Reports ended.leave parser.current.start :=
    ⟨⟨h.extension.tokens, h.extension.stop, h.extension.handlers,
      by simp [Parser.leave, h.extension.depth], h.extension.diagnostics⟩, h.reached, h.recorded⟩
  refine meets_nested (fun _ => ?_) (fun _ => ?_)
  · exact (inside _ deeper rfl).mono (fun _ ended => leave ended)
      (fun diagnostic ended => leave (ended.record diagnostic))
  · exact reports_fail (α := α) regular rfl

theorem reports_recovering
    {step : Step α} (h : step.Reports parser floor) :
    (recovering step).Reports parser floor :=
  meets_recovering h

end Step

namespace Grammar

open Step Concrete

/-- What the steps of the grammar with a number of units of fuel report. -/
structure Reports (fuel : Nat) : Prop where
  expression : ∀ power {parser : Parser}, parser.Regular →
    (expression fuel power).Reports parser parser.current.start
  operations : ∀ power left {parser : Parser}, parser.Regular →
    (operations fuel power left).Reports parser parser.next.start
  operation : ∀ handler left power {parser : Parser}, parser.Regular →
    (operation fuel handler left power).Reports parser parser.next.start
  operand : ∀ handler {parser : Parser}, parser.Regular →
    Handlers.standard.operand parser.current.kind = some handler →
    (operand fuel handler).Reports parser parser.current.start
  block : ∀ {parser : Parser}, parser.Regular →
    (block fuel).Reports parser parser.next.start
  blockStatements : ∀ found {parser : Parser}, parser.Regular →
    (blockStatements fuel found).Reports parser parser.current.start
  statement : ∀ {parser : Parser}, parser.Regular →
    (statement fuel).Reports parser parser.current.start
  statementBy : ∀ handler {parser : Parser}, parser.Regular →
    (statementBy fuel handler).Reports parser parser.current.start

section Units

variable {fuel : Nat} {parser : Parser}

theorem expression_reports (h : Reports fuel) (power : Power) (regular : parser.Regular) :
    (expression (fuel + 1) power).Reports parser parser.current.start := by
  have noted : (parser.note (.expressionBegun parser.current)).Regular :=
    regular.keep rfl rfl
  have begins := Parser.Extends.note (.expressionBegun parser.current) parser
  simp only [expression, Step.Reports, current_bind, modify_bind]
  refine Outcome.Meets.mono (reports_nested noted ?_)
    (fun _ _ => .ofExtends begins rfl) (fun _ _ => .ofExtends begins rfl)
  intro inner regular same
  have same : parser.current = inner.current := same.symm
  simp only [Step.Reports, read_bind, regular.handlers, same]
  cases known : Handlers.standard.operand inner.current.kind with
  | none =>
      exact reports_fail (α := Expr) regular ⟨rfl, known⟩
  | some handler =>
      exact reports_bind regular (h.operand handler regular known)
        (fun left _ regular => h.operations power left regular)

theorem operations_reports (h : Reports fuel) (power : Power) (left : Expr)
    (regular : parser.Regular) :
    (operations (fuel + 1) power left).Reports parser parser.next.start := by
  simp only [operations, Step.Reports, read_bind]
  by_cases binds : power < parser.next.kind.power
  · simp only [binds, if_true, read_bind]
    cases parser.handlers.operator parser.next.kind with
    | none =>
        exact reports_pure left parser
    | some handler =>
        refine reports_advance (Step.Reports.fresh ?_ regular.advance)
        exact reports_bind regular.advance (h.operation handler left _ regular.advance)
          (fun whole _ regular => h.operations power whole regular)
  · simp only [binds, if_false]
    exact reports_pure left parser

theorem operation_reports (h : Reports fuel) (handler : OperatorHandler) (left : Expr)
    (power : Power) (regular : parser.Regular) :
    (operation (fuel + 1) handler left power).Reports parser parser.next.start := by
  unfold operation
  refine reports_take ?_
  cases handler with
  | binary =>
      exact reports_bind regular.advance (h.expression power regular.advance)
        (fun _ _ _ => reports_pure _ _)
  | binaryLowest =>
      exact reports_bind regular.advance (h.expression .lowest regular.advance)
        (fun _ _ _ => reports_pure _ _)

theorem alternative_reports (h : Reports fuel) (whole : Option Block → Expr)
    (regular : parser.Regular) :
    (alternative (block fuel) whole).Reports parser parser.next.start := by
  simp only [alternative, Step.Reports, read_bind]
  by_cases isElse : parser.next.kind = .elseWord
  · simp only [isElse, if_true]
    refine reports_advance (Step.Reports.fresh ?_ regular.advance)
    refine reports_expectNext_bind (Step.Reports.fresh ?_ regular.advance.advance)
    exact reports_bind regular.advance.advance (h.block regular.advance.advance)
      (fun _ _ _ => reports_pure _ _)
  · simp only [isElse, if_false]
    exact reports_pure _ parser

/-- Behind the brace of the first block it is read, and another one may follow. -/
theorem consequence_reports (h : Reports fuel) (token : Token) (condition : Expr)
    (regular : parser.Regular) :
    (do
      let consequence ← block fuel
      alternative (block fuel) (.conditional token condition consequence) : Step Expr).Reports
      parser parser.next.start :=
  reports_bind regular (h.block regular) (fun _ _ regular => alternative_reports h _ regular)

/-- Behind the parenthesis of a condition the brace of the first block is expected. -/
theorem braced_reports (h : Reports fuel) (token : Token) (condition : Expr)
    (regular : parser.Regular) :
    (do
      let _ ← Step.expectNext .openBrace
      let consequence ← block fuel
      alternative (block fuel) (.conditional token condition consequence) : Step Expr).Reports
      parser parser.next.start :=
  reports_expectNext_bind
    ((consequence_reports h token condition regular.advance).fresh regular.advance)

theorem branches_reports (h : Reports fuel) (token : Token) (condition : Expr)
    (regular : parser.Regular) :
    (branches (block fuel) token condition).Reports parser parser.next.start :=
  reports_expectNext_bind ((braced_reports h token condition regular.advance).fresh regular.advance)

theorem unary_reports (h : Reports fuel) (regular : parser.Regular) :
    (operand (fuel + 1) .unary).Reports parser parser.next.start := by
  unfold operand
  refine reports_take ?_
  exact reports_bind regular.advance (h.expression .unary regular.advance)
    (fun _ _ _ => reports_pure _ _)

/-- Behind the expression in parentheses its parenthesis is expected. -/
theorem closed_reports (inner : Expr) (regular : parser.Regular) :
    (do
      let _ ← Step.expectNext .closeParen
      pure inner : Step Expr).Reports parser parser.next.start :=
  reports_expectNext_bind ((reports_pure inner parser.advance).fresh regular.advance)

theorem group_reports (h : Reports fuel) (regular : parser.Regular) :
    (operand (fuel + 1) .group).Reports parser parser.next.start := by
  unfold operand
  refine reports_advance ?_
  exact reports_bind regular.advance (h.expression .lowest regular.advance)
    (fun inner _ regular => closed_reports inner regular)

/-- Behind the parenthesis of a condition its first token is passed to. -/
theorem condition_reports (h : Reports fuel) (token : Token) (regular : parser.Regular) :
    (do
      Step.advance
      let condition ← expression fuel .lowest
      branches (block fuel) token condition : Step Expr).Reports parser parser.next.start :=
  reports_advance (reports_bind regular.advance (h.expression .lowest regular.advance)
    (fun condition _ regular => branches_reports h token condition regular))

theorem conditional_reports (h : Reports fuel) (regular : parser.Regular) :
    (operand (fuel + 1) .conditional).Reports parser parser.next.start := by
  simp only [operand, Step.Reports, current_bind]
  exact reports_expectNext_bind ((condition_reports h _ regular.advance).fresh regular.advance)

theorem operand_reports (h : Reports fuel) (handler : OperandHandler) (regular : parser.Regular)
    (known : Handlers.standard.operand parser.current.kind = some handler) :
    (operand (fuel + 1) handler).Reports parser parser.current.start := by
  have mem := mem_kinds_of_operand known
  cases handler with
  | identifier =>
      exact (reports_pure (Expr.identifier ⟨parser.current, parser.current.literal⟩) parser).fresh
        regular
  | integer =>
      have isInteger : parser.current.kind = .integer := List.mem_singleton.mp mem
      simp only [operand, Step.Reports, current_bind]
      cases failed : Integer.parse parser.current.literal with
      | ok value =>
          exact (reports_pure (Expr.integer parser.current value) parser).fresh regular
      | error fault =>
          have spelled := regular.spelled parser.current (by
            rw [Parser.tokens_of_current (by rw [isInteger]; decide)]
            exact List.mem_cons_self)
          rw [isInteger] at spelled
          exact reports_fail (α := Expr) regular
            ⟨isInteger, rfl, failed, spelled.fault_of_integer failed⟩
  | float =>
      simp only [operand, Step.Reports, current_bind]
      cases failed : Binary64.ofLiteral? parser.current.literal with
      | some value =>
          exact (reports_pure (Expr.float parser.current value) parser).fresh regular
      | none =>
          exact reports_fail (α := Expr) regular ⟨List.mem_singleton.mp mem, rfl, failed⟩
  | boolean =>
      let value := Expr.boolean parser.current (parser.current.kind = .trueWord)
      exact (reports_pure value parser).fresh regular
  | unary =>
      exact (unary_reports h regular).fresh regular
  | group =>
      exact (group_reports h regular).fresh regular
  | conditional =>
      exact (conditional_reports h regular).fresh regular

/-- Behind the statements of a block its brace is expected. -/
theorem closing_reports (token : Token) (statements : List Stmt) (regular : parser.Regular) :
    (do
      let last ← Step.current
      if last.kind = .eof then
        Step.fail (.unexpectedToken .closeBrace .eof) last.start
      else
        pure (.mk token ⟨token.start, last.stop⟩ statements) : Step Block).Reports
      parser parser.next.start := by
  simp only [Step.Reports, current_bind]
  by_cases atEnd : parser.current.kind = .eof
  · simp only [atEnd, if_true]
    -- The end of the input is the current token and the next one.
    rw [Parser.next_of_nil (regular.tokens_eq_nil atEnd)]
    exact reports_fail (α := Block) regular ⟨atEnd.symm, by decide⟩
  · simp only [atEnd, if_false]
    exact reports_pure _ parser

theorem block_reports (h : Reports fuel) (regular : parser.Regular) :
    (block (fuel + 1)).Reports parser parser.next.start := by
  unfold block
  exact reports_take (reports_bind regular.advance (h.blockStatements [] regular.advance)
    (fun statements _ regular => closing_reports _ statements regular))

/-- Behind a statement that was read the statements of a block go on. -/
theorem advance_blockStatements_reports (h : Reports fuel) (found : List Stmt)
    (regular : parser.Regular) :
    (do
      Step.advance
      blockStatements fuel found : Step (List Stmt)).Reports parser parser.next.start :=
  reports_advance (h.blockStatements found regular.advance)

/-- Behind a statement that failed they go on as well, or end. -/
theorem stopped_blockStatements_reports (h : Reports fuel) (found : List Stmt)
    (regular : parser.Regular) :
    (do
      let stopped ← Step.current
      if stopped.kind = .closeBrace then
        blockStatements fuel found
      else
        Step.advance
        blockStatements fuel found : Step (List Stmt)).Reports parser parser.next.start := by
  simp only [Step.Reports, current_bind]
  by_cases closed : parser.current.kind = .closeBrace
  · simp only [closed, if_true]
    refine (blockStatements_of_last fuel found (.inl closed)).mono ?_ (fun _ _ none => none.elim)
    rintro all _ ⟨_, rfl⟩
    exact .refl _ (Nat.le_refl _)
  · simp only [closed, if_false]
    exact advance_blockStatements_reports h found regular

theorem blockStatements_reports (h : Reports fuel) (found : List Stmt)
    (regular : parser.Regular) :
    (blockStatements (fuel + 1) found).Reports parser parser.current.start := by
  simp only [blockStatements, Step.Reports, current_bind]
  by_cases last : parser.current.kind = .closeBrace ∨ parser.current.kind = .eof
  · simp only [last, if_true]
    exact (reports_pure found.reverse parser).fresh regular
  · simp only [last, if_false]
    refine reports_bind regular (reports_recovering (h.statement regular)) ?_
    intro read ended regular
    cases read with
    | some statement =>
        exact advance_blockStatements_reports h _ regular
    | none =>
        exact stopped_blockStatements_reports h found regular

theorem statement_reports (h : Reports fuel) (regular : parser.Regular) :
    (statement (fuel + 1)).Reports parser parser.current.start := by
  have noted : (parser.note (.statementBegun parser.current)).Regular :=
    regular.keep rfl rfl
  have begins := Parser.Extends.note (.statementBegun parser.current) parser
  simp only [statement, Step.Reports, current_bind, modify_bind, read_bind]
  exact (h.statementBy _ noted).mono
    (fun _ _ => .ofExtends begins rfl) (fun _ _ => .ofExtends begins rfl)

/-- Behind the value of a statement its semicolon is expected. -/
theorem semicolon_reports (statement : Stmt) (regular : parser.Regular) :
    (do
      let _ ← Step.expectNext .semicolon
      pure statement : Step Stmt).Reports parser parser.next.start :=
  reports_expectNext_bind ((reports_pure statement parser.advance).fresh regular.advance)

theorem terminated_reports (h : Reports fuel) (result : Expr → Stmt) (regular : parser.Regular) :
    (do
      let value ← expression fuel .lowest
      let _ ← Step.expectNext .semicolon
      pure (result value) : Step Stmt).Reports parser parser.current.start :=
  reports_bind regular (h.expression .lowest regular)
    (fun value _ regular => semicolon_reports (result value) regular)

/-- Behind the word of a returning statement its value may be left out. -/
theorem returned_reports (h : Reports fuel) (token : Token) (regular : parser.Regular) :
    (do
      let first ← Step.current
      if first.kind = .semicolon then
        pure (.returning token none)
      else
        let value ← expression fuel .lowest
        let _ ← Step.expectNext .semicolon
        pure (.returning token (some value)) : Step Stmt).Reports parser parser.current.start := by
  simp only [Step.Reports, current_bind]
  split
  · exact (reports_pure (Stmt.returning token none) parser).fresh regular
  · exact terminated_reports h _ regular

/-- Behind an expression that is a statement its semicolon may follow. -/
theorem optional_reports (statement : Stmt) (regular : parser.Regular) :
    (do
      let next ← Step.read Parser.next
      if next.kind = .semicolon then
        Step.advance
      pure statement : Step Stmt).Reports parser parser.next.start := by
  simp only [Step.Reports, read_bind]
  split
  · exact reports_advance ((reports_pure statement parser.advance).fresh regular.advance)
  · exact reports_pure statement parser

theorem statementBy_reports (h : Reports fuel) (handler : StatementHandler)
    (regular : parser.Regular) :
    (statementBy (fuel + 1) handler).Reports parser parser.current.start := by
  cases handler with
  | binding =>
      unfold statementBy
      refine reports_expect_bind regular (reports_expect_bind regular.advance ?_)
      refine reports_expect_bind regular.advance.advance ?_
      exact terminated_reports h _ regular.advance.advance.advance
  | returning =>
      unfold statementBy
      exact reports_expect_bind regular (returned_reports h _ regular.advance)
  | expression =>
      simp only [statementBy, Step.Reports, current_bind]
      exact reports_bind regular (h.expression .lowest regular)
        (fun value _ regular => optional_reports (.expression parser.current value) regular)
  | block =>
      unfold statementBy
      exact (reports_bind regular (h.block regular) (fun _ _ _ => reports_pure _ _)).fresh regular

end Units

theorem reports_of_fuel (fuel : Nat) :
    Reports fuel := by
  induction fuel with
  | zero =>
      exact
        { expression := fun _ _ _ => trivial
          operations := fun _ _ _ _ => trivial
          operation := fun _ _ _ _ _ => trivial
          operand := fun handler _ _ _ => by cases handler <;> trivial
          block := fun _ => trivial
          blockStatements := fun _ _ _ => trivial
          statement := fun _ => trivial
          statementBy := fun handler _ _ => by cases handler <;> trivial }
  | succ fuel h =>
      exact
        { expression := fun power _ => expression_reports h power
          operations := fun power left _ => operations_reports h power left
          operation := fun handler left power _ => operation_reports h handler left power
          operand := fun handler _ => operand_reports h handler
          block := block_reports h
          blockStatements := fun found _ => blockStatements_reports h found
          statement := statement_reports h
          statementBy := fun handler _ => statementBy_reports h handler }

theorem statements_reports (fuel : Nat) (found : List Stmt) {parser : Parser}
    (regular : parser.Regular) :
    (statements fuel found).Reports parser parser.current.start := by
  induction fuel generalizing found parser with
  | zero =>
      trivial
  | succ fuel ih =>
      simp only [statements, Step.Reports, current_bind]
      split
      · exact (reports_pure found.reverse parser).fresh regular
      · refine reports_bind regular
          (reports_recovering ((reports_of_fuel fuel).statement regular)) ?_
        intro read ended regular
        exact reports_advance (ih _ regular.advance)

end Grammar
end LetLang
