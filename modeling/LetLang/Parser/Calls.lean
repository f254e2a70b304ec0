import LetLang.Parser.Grammar
import LetLang.Parser.Outcome

/-!
# The calls of the grammar

A `Call` is a task of the grammar at a parser.  `Call.Makes` lists the calls that one call makes, a
round of a loop being a call as well.  It has a constructor for each place of the grammar, and each
of them asks for what has been read by then.

**Result.** `Call.exists_makes_of_exhausted`: the list is complete, for fuel runs out only in a call
that is made.
-/

namespace LetLang

/-- What may be read. -/
inductive Task
  | expression (power : Power)
  | operations (power : Power) (left : Expr)
  | operation (handler : OperatorHandler) (left : Expr) (power : Power)
  | operand (handler : OperandHandler)
  | block
  | blockStatements (found : List Stmt)
  | statement
  | statementBy (handler : StatementHandler)
  | statements (found : List Stmt)

namespace Task

/-- What a task ends in when it is done. -/
def Value : Task → Type
  | expression _ | operations _ _ | operation _ _ _ | operand _ => Expr
  | block => Block
  | blockStatements _ | statements _ => List Stmt
  | statement | statementBy _ => Stmt

/-- The step of the grammar that a task is. -/
def step (fuel : Nat) : (task : Task) → Step task.Value
  | expression power => Grammar.expression fuel power
  | operations power left => Grammar.operations fuel power left
  | operation handler left power => Grammar.operation fuel handler left power
  | operand handler => Grammar.operand fuel handler
  | block => Grammar.block fuel
  | blockStatements found => Grammar.blockStatements fuel found
  | statement => Grammar.statement fuel
  | statementBy handler => Grammar.statementBy fuel handler
  | statements found => Grammar.statements fuel found

end Task

namespace Parser

/-- A parser at which the operand of a new expression is read, one level further in. -/
def within (parser : Parser) : Parser :=
  { parser.note (.expressionBegun parser.current) with depth := parser.depth + 1 }

end Parser

/-- A task of the grammar at a parser. -/
structure Call where
  task : Task
  parser : Parser

namespace Call

/-- How a call ends, with a number of units of fuel. -/
def run (fuel : Nat) (call : Call) : Outcome call.task.Value :=
  call.task.step fuel call.parser

open Grammar in
/-- A call makes another one. -/
inductive Makes : Call → Call → Prop
  | operand {parser : Parser} {power : Power} {handler : OperandHandler}
      (room : parser.depth < Parser.nestingLimit)
      (known : parser.handlers.operand parser.current.kind = some handler) :
      Makes ⟨.expression power, parser⟩ ⟨.operand handler, parser.within⟩
  | firstOperations {parser ended : Parser} {power : Power} {handler : OperandHandler}
      {left : Expr} {fuel : Nat}
      (room : parser.depth < Parser.nestingLimit)
      (known : parser.handlers.operand parser.current.kind = some handler)
      (begun : operand fuel handler parser.within = .done left ended) :
      Makes ⟨.expression power, parser⟩ ⟨.operations power left, ended⟩
  | operation {parser : Parser} {power : Power} {left : Expr} {handler : OperatorHandler}
      (binds : power < parser.next.kind.power)
      (known : parser.handlers.operator parser.next.kind = some handler) :
      Makes ⟨.operations power left, parser⟩
        ⟨.operation handler left parser.next.kind.power, parser.advance⟩
  | nextOperations {parser ended : Parser} {power : Power} {left whole : Expr}
      {handler : OperatorHandler} {fuel : Nat}
      (binds : power < parser.next.kind.power)
      (known : parser.handlers.operator parser.next.kind = some handler)
      (applied : Grammar.operation fuel handler left parser.next.kind.power parser.advance =
        .done whole ended) :
      Makes ⟨.operations power left, parser⟩ ⟨.operations power whole, ended⟩
  | right {parser : Parser} {power : Power} {left : Expr} :
      Makes ⟨.operation .binary left power, parser⟩ ⟨.expression power, parser.advance⟩
  | rightLowest {parser : Parser} {power : Power} {left : Expr} :
      Makes ⟨.operation .binaryLowest left power, parser⟩ ⟨.expression .lowest, parser.advance⟩
  | negated {parser : Parser} :
      Makes ⟨.operand .unary, parser⟩ ⟨.expression .unary, parser.advance⟩
  | grouped {parser : Parser} :
      Makes ⟨.operand .group, parser⟩ ⟨.expression .lowest, parser.advance⟩
  | condition {parser : Parser}
      (opened : parser.next.kind = .openParen) :
      Makes ⟨.operand .conditional, parser⟩ ⟨.expression .lowest, parser.advance.advance⟩
  | consequence {parser tested : Parser} {value : Expr} {fuel : Nat}
      (opened : parser.next.kind = .openParen)
      (test : expression fuel .lowest parser.advance.advance = .done value tested)
      (closed : tested.next.kind = .closeParen)
      (braced : tested.advance.next.kind = .openBrace) :
      Makes ⟨.operand .conditional, parser⟩ ⟨.block, tested.advance.advance⟩
  | alternative {parser tested followed : Parser} {value : Expr} {first : Block} {fuel : Nat}
      (opened : parser.next.kind = .openParen)
      (test : expression fuel .lowest parser.advance.advance = .done value tested)
      (closed : tested.next.kind = .closeParen)
      (braced : tested.advance.next.kind = .openBrace)
      (taken : block fuel tested.advance.advance = .done first followed)
      (isElse : followed.next.kind = .elseWord)
      (bracedElse : followed.advance.next.kind = .openBrace) :
      Makes ⟨.operand .conditional, parser⟩ ⟨.block, followed.advance.advance⟩
  | inside {parser : Parser} :
      Makes ⟨.block, parser⟩ ⟨.blockStatements [], parser.advance⟩
  | blockStatement {parser : Parser} {found : List Stmt}
      (more : ¬ (parser.current.kind = .closeBrace ∨ parser.current.kind = .eof)) :
      Makes ⟨.blockStatements found, parser⟩ ⟨.statement, parser⟩
  | blockRound {parser ended : Parser} {found : List Stmt} {read : Option Stmt} {fuel : Nat}
      (more : ¬ (parser.current.kind = .closeBrace ∨ parser.current.kind = .eof))
      (round : Step.recovering (statement fuel) parser = .done read ended)
      (onward : read = none → ended.current.kind ≠ .closeBrace) :
      Makes ⟨.blockStatements found, parser⟩
        ⟨.blockStatements (read.toList ++ found), ended.advance⟩
  | blockStop {parser ended : Parser} {found : List Stmt} {fuel : Nat}
      (more : ¬ (parser.current.kind = .closeBrace ∨ parser.current.kind = .eof))
      (round : Step.recovering (statement fuel) parser = .done none ended)
      (closed : ended.current.kind = .closeBrace) :
      Makes ⟨.blockStatements found, parser⟩ ⟨.blockStatements found, ended⟩
  | statementBy {parser : Parser} :
      Makes ⟨.statement, parser⟩
        ⟨.statementBy ((parser.handlers.statement parser.current.kind).getD .expression),
          parser.note (.statementBegun parser.current)⟩
  | bound {parser : Parser}
      (isLet : parser.current.kind = .letWord)
      (named : parser.advance.current.kind = .identifier)
      (assigned : parser.advance.advance.current.kind = .assign) :
      Makes ⟨.statementBy .binding, parser⟩
        ⟨.expression .lowest, parser.advance.advance.advance⟩
  | returned {parser : Parser}
      (isReturn : parser.current.kind = .returnWord)
      (more : parser.advance.current.kind ≠ .semicolon) :
      Makes ⟨.statementBy .returning, parser⟩ ⟨.expression .lowest, parser.advance⟩
  | standing {parser : Parser} :
      Makes ⟨.statementBy .expression, parser⟩ ⟨.expression .lowest, parser⟩
  | whole {parser : Parser} :
      Makes ⟨.statementBy .block, parser⟩ ⟨.block, parser⟩
  | statement {parser : Parser} {found : List Stmt}
      (more : parser.current.kind ≠ .eof) :
      Makes ⟨.statements found, parser⟩ ⟨.statement, parser⟩
  | round {parser ended : Parser} {found : List Stmt} {read : Option Stmt} {fuel : Nat}
      (more : parser.current.kind ≠ .eof)
      (round : Step.recovering (Grammar.statement fuel) parser = .done read ended) :
      Makes ⟨.statements found, parser⟩ ⟨.statements (read.toList ++ found), ended.advance⟩

section Exhaustion

open Step

variable {α β : Type}

/-- Two steps in a row are exhausted only if one of them is. -/
theorem exhausted_of_bind
    {step : Step α} {next : α → Step β} {parser : Parser}
    (h : (step >>= next) parser = .exhausted) :
    step parser = .exhausted ∨
      ∃ value ended, step parser = .done value ended ∧ next value ended = .exhausted := by
  change step.andThen next parser = .exhausted at h
  unfold andThen at h
  cases outcome : step parser with
  | done value ended =>
      rw [outcome] at h
      exact .inr ⟨value, ended, rfl, h⟩
  | failed diagnostic ended =>
      rw [outcome] at h
      cases h
  | exhausted =>
      exact .inl rfl

theorem exhausted_of_nested
    {step : Step α} {parser : Parser}
    (h : nested step parser = .exhausted) :
    parser.depth < Parser.nestingLimit ∧
      step { parser with depth := parser.depth + 1 } = .exhausted := by
  unfold nested Parser.enter at h
  by_cases room : parser.depth < Parser.nestingLimit
  · simp only [room, if_true] at h
    cases outcome : step { parser with depth := parser.depth + 1 } with
    | done value ended =>
        rw [outcome] at h
        cases h
    | failed diagnostic ended =>
        rw [outcome] at h
        cases h
    | exhausted =>
        exact ⟨room, rfl⟩
  · simp only [room, if_false] at h
    cases h

theorem exhausted_of_recovering
    {step : Step α} {parser : Parser}
    (h : recovering step parser = .exhausted) :
    step parser = .exhausted := by
  unfold recovering at h
  cases outcome : step parser with
  | done value ended =>
      rw [outcome] at h
      cases h
  | failed diagnostic ended =>
      rw [outcome] at h
      cases h
  | exhausted =>
      rfl

/-- Behind an expected token fuel runs out only where this token is. -/
theorem exhausted_of_expect_bind
    {kind : Kind} {next : Token → Step β} {parser : Parser}
    (h : (expect kind >>= next) parser = .exhausted) :
    parser.current.kind = kind ∧ next parser.current parser.advance = .exhausted := by
  by_cases same : parser.current.kind = kind
  · rw [expect_bind_of_kind same] at h
    exact ⟨same, h⟩
  · rw [expect_bind_of_ne same] at h
    cases h

theorem exhausted_of_expectNext_bind
    {kind : Kind} {next : Token → Step β} {parser : Parser}
    (h : (expectNext kind >>= next) parser = .exhausted) :
    parser.next.kind = kind ∧ next parser.next parser.advance = .exhausted := by
  by_cases same : parser.next.kind = kind
  · rw [expectNext_bind_of_kind same] at h
    exact ⟨same, h⟩
  · rw [expectNext_bind_of_ne same] at h
    cases h

/-- Where nothing is left to do but to expect a token and to give a value, fuel does not run
out. -/
theorem expectNext_pure_ne_exhausted
    {kind : Kind} {value : Token → α} {parser : Parser} :
    (expectNext kind >>= fun token => pure (value token)) parser ≠ .exhausted := by
  intro h
  have := (exhausted_of_expectNext_bind h).2
  cases this

end Exhaustion

section Complete

open Step

variable {fuel : Nat} {parser : Parser}

/-- Fuel runs out in a call that a call makes. -/
def RunsOut (fuel : Nat) (caller : Call) : Prop :=
  ∃ callee, caller.Makes callee ∧ callee.run fuel = .exhausted

theorem runsOut_expression {power : Power}
    (h : Grammar.expression (fuel + 1) power parser = .exhausted) :
    RunsOut fuel ⟨.expression power, parser⟩ := by
  simp only [Grammar.expression, current_bind, modify_bind] at h
  obtain ⟨room, h⟩ := exhausted_of_nested h
  simp only [read_bind, Parser.handlers_note] at h
  cases known : parser.handlers.operand parser.current.kind with
  | none =>
      simp only [known] at h
      cases h
  | some handler =>
      simp only [known] at h
      rcases exhausted_of_bind h with exhausted | ⟨left, ended, begun, exhausted⟩
      · exact ⟨_, .operand room known, exhausted⟩
      · exact ⟨_, .firstOperations room known begun, exhausted⟩

theorem runsOut_operations {power : Power} {left : Expr}
    (h : Grammar.operations (fuel + 1) power left parser = .exhausted) :
    RunsOut fuel ⟨.operations power left, parser⟩ := by
  simp only [Grammar.operations, read_bind] at h
  by_cases binds : power < parser.next.kind.power
  · simp only [binds, if_true, read_bind] at h
    cases known : parser.handlers.operator parser.next.kind with
    | none =>
        simp only [known] at h
        cases h
    | some handler =>
        simp only [known, advance_bind] at h
        rcases exhausted_of_bind h with exhausted | ⟨whole, ended, applied, exhausted⟩
        · exact ⟨_, .operation binds known, exhausted⟩
        · exact ⟨_, .nextOperations binds known applied, exhausted⟩
  · simp only [binds, if_false] at h
    cases h

theorem runsOut_operation {handler : OperatorHandler} {left : Expr} {power : Power}
    (h : Grammar.operation (fuel + 1) handler left power parser = .exhausted) :
    RunsOut fuel ⟨.operation handler left power, parser⟩ := by
  simp only [Grammar.operation, take_bind] at h
  cases handler with
  | binary =>
      rcases exhausted_of_bind h with exhausted | ⟨_, _, _, done⟩
      · exact ⟨_, .right, exhausted⟩
      · cases done
  | binaryLowest =>
      rcases exhausted_of_bind h with exhausted | ⟨_, _, _, done⟩
      · exact ⟨_, .rightLowest, exhausted⟩
      · cases done

theorem runsOut_conditional
    (h : Grammar.operand (fuel + 1) .conditional parser = .exhausted) :
    RunsOut fuel ⟨.operand .conditional, parser⟩ := by
  simp only [Grammar.operand, current_bind] at h
  obtain ⟨opened, h⟩ := exhausted_of_expectNext_bind h
  simp only [advance_bind] at h
  rcases exhausted_of_bind h with exhausted | ⟨value, tested, test, h⟩
  · exact ⟨_, .condition opened, exhausted⟩
  · obtain ⟨closed, h⟩ := exhausted_of_expectNext_bind h
    obtain ⟨braced, h⟩ := exhausted_of_expectNext_bind h
    rcases exhausted_of_bind h with exhausted | ⟨first, followed, taken, h⟩
    · exact ⟨_, .consequence opened test closed braced, exhausted⟩
    · simp only [Grammar.alternative, read_bind] at h
      by_cases isElse : followed.next.kind = .elseWord
      · simp only [isElse, if_true, advance_bind] at h
        obtain ⟨bracedElse, h⟩ := exhausted_of_expectNext_bind h
        rcases exhausted_of_bind h with exhausted | ⟨_, _, _, done⟩
        · exact ⟨_, .alternative opened test closed braced taken isElse bracedElse, exhausted⟩
        · cases done
      · simp only [isElse, if_false] at h
        cases h

theorem runsOut_operand {handler : OperandHandler}
    (h : Grammar.operand (fuel + 1) handler parser = .exhausted) :
    RunsOut fuel ⟨.operand handler, parser⟩ := by
  cases handler with
  | identifier | boolean =>
      cases h
  | integer =>
      simp only [Grammar.operand, current_bind] at h
      cases known : Integer.parse parser.current.literal <;> simp only [known] at h <;> cases h
  | float =>
      simp only [Grammar.operand, current_bind] at h
      cases known : Binary64.ofLiteral? parser.current.literal <;>
        simp only [known] at h <;> cases h
  | unary =>
      simp only [Grammar.operand, take_bind] at h
      rcases exhausted_of_bind h with exhausted | ⟨_, _, _, done⟩
      · exact ⟨_, .negated, exhausted⟩
      · cases done
  | group =>
      simp only [Grammar.operand, advance_bind] at h
      rcases exhausted_of_bind h with exhausted | ⟨_, _, _, h⟩
      · exact ⟨_, .grouped, exhausted⟩
      · exact absurd h expectNext_pure_ne_exhausted
  | conditional =>
      exact runsOut_conditional h

theorem runsOut_block
    (h : Grammar.block (fuel + 1) parser = .exhausted) :
    RunsOut fuel ⟨.block, parser⟩ := by
  simp only [Grammar.block, take_bind] at h
  rcases exhausted_of_bind h with exhausted | ⟨_, _, _, h⟩
  · exact ⟨_, .inside, exhausted⟩
  · simp only [current_bind] at h
    split at h <;> cases h

theorem runsOut_blockStatements {found : List Stmt}
    (h : Grammar.blockStatements (fuel + 1) found parser = .exhausted) :
    RunsOut fuel ⟨.blockStatements found, parser⟩ := by
  simp only [Grammar.blockStatements, current_bind] at h
  by_cases more : parser.current.kind = .closeBrace ∨ parser.current.kind = .eof
  · simp only [more, if_true] at h
    cases h
  · simp only [more, if_false] at h
    rcases exhausted_of_bind h with exhausted | ⟨read, ended, round, h⟩
    · exact ⟨_, .blockStatement more, exhausted_of_recovering exhausted⟩
    · cases read with
      | some statement =>
          exact ⟨_, .blockRound more round (fun none => by cases none), h⟩
      | none =>
          simp only [current_bind] at h
          by_cases closed : ended.current.kind = .closeBrace
          · simp only [closed, if_true] at h
            exact ⟨_, .blockStop more round closed, h⟩
          · simp only [closed, if_false, advance_bind] at h
            exact ⟨_, .blockRound more round (fun _ => closed), h⟩

theorem runsOut_statementBy {handler : StatementHandler}
    (h : Grammar.statementBy (fuel + 1) handler parser = .exhausted) :
    RunsOut fuel ⟨.statementBy handler, parser⟩ := by
  cases handler with
  | binding =>
      simp only [Grammar.statementBy] at h
      obtain ⟨isLet, h⟩ := exhausted_of_expect_bind h
      obtain ⟨named, h⟩ := exhausted_of_expect_bind h
      obtain ⟨assigned, h⟩ := exhausted_of_expect_bind h
      rcases exhausted_of_bind h with exhausted | ⟨_, _, _, h⟩
      · exact ⟨_, .bound isLet named assigned, exhausted⟩
      · exact absurd h expectNext_pure_ne_exhausted
  | returning =>
      simp only [Grammar.statementBy] at h
      obtain ⟨isReturn, h⟩ := exhausted_of_expect_bind h
      simp only [current_bind] at h
      by_cases bare : parser.advance.current.kind = .semicolon
      · simp only [bare, if_true] at h
        cases h
      · simp only [bare, if_false] at h
        rcases exhausted_of_bind h with exhausted | ⟨_, _, _, h⟩
        · exact ⟨_, .returned isReturn bare, exhausted⟩
        · exact absurd h expectNext_pure_ne_exhausted
  | expression =>
      simp only [Grammar.statementBy, current_bind] at h
      rcases exhausted_of_bind h with exhausted | ⟨_, _, _, h⟩
      · exact ⟨_, .standing, exhausted⟩
      · simp only [read_bind] at h
        split at h <;> cases h
  | block =>
      simp only [Grammar.statementBy] at h
      rcases exhausted_of_bind h with exhausted | ⟨_, _, _, done⟩
      · exact ⟨_, .whole, exhausted⟩
      · cases done

theorem runsOut_statements {found : List Stmt}
    (h : Grammar.statements (fuel + 1) found parser = .exhausted) :
    RunsOut fuel ⟨.statements found, parser⟩ := by
  simp only [Grammar.statements, current_bind] at h
  by_cases more : parser.current.kind = .eof
  · simp only [more, if_true] at h
    cases h
  · simp only [more, if_false] at h
    rcases exhausted_of_bind h with exhausted | ⟨read, ended, round, h⟩
    · exact ⟨_, .statement more, exhausted_of_recovering exhausted⟩
    · exact ⟨_, .round more round, h⟩

/-- A call wants for fuel only because one of the calls that it makes does. -/
theorem exists_makes_of_exhausted {caller : Call}
    (h : caller.run (fuel + 1) = .exhausted) :
    ∃ callee, caller.Makes callee ∧ callee.run fuel = .exhausted := by
  obtain ⟨task, parser⟩ := caller
  cases task with
  | expression power =>
      exact runsOut_expression h
  | operations power left =>
      exact runsOut_operations h
  | operation handler left power =>
      exact runsOut_operation h
  | operand handler =>
      exact runsOut_operand h
  | block =>
      exact runsOut_block h
  | blockStatements found =>
      exact runsOut_blockStatements h
  | statement =>
      exact ⟨_, .statementBy, h⟩
  | statementBy handler =>
      exact runsOut_statementBy h
  | statements found =>
      exact runsOut_statements h

end Complete

end Call
end LetLang
