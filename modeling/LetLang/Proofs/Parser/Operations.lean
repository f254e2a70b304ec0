import LetLang.Proofs.Parser.Keeps
import LetLang.Proofs.Token.Window

/-!
# Operations on a parser

A parser may be used as a whole, or one operation after the other: its tokens are passed, levels
are entered and left, handlers are put into its tables, and parts of the text are read, in any
order and with any handlers.

**Input.** A source text, handlers to begin with, and a list of operations.

**Result.** `Parser.operations_invariant`: behind every operation the parser holds the window on
the text at some place and has not gone back, and its depth is within the limit.  Reading a part of
the text, well or not, changes nothing but the place, the diagnostics and the trace, and diagnostics
are only added.
-/

namespace LetLang
namespace Parser

/-- The parts of a text that can be read from a parser. -/
inductive Reading
  | expression (power : Power)
  | operand (handler : OperandHandler)
  | operation (handler : OperatorHandler) (left : Expr) (power : Power)
  | statement
  | statementBy (handler : StatementHandler)
  | statementOrRecord
  | block
  | program

/-- The parser that is left when a part of the text has been read, or could not be. -/
def Reading.apply : Reading → Parser → Parser
  | expression power, parser => (readExpression power parser).2
  | operand handler, parser => (readOperand handler parser).2
  | operation handler left power, parser => (readOperation handler left power parser).2
  | statement, parser => parser.readStatement.2
  | statementBy handler, parser => (readStatementBy handler parser).2
  | statementOrRecord, parser => parser.readStatementOrRecord.2
  | block, parser => parser.readBlock.2
  | program, parser => parser.readProgram.2

/-- What can be done with a parser. -/
inductive Operation
  | advance
  | expect (kind : Kind)
  | expectNext (kind : Kind)
  | enter
  | leave
  | record (diagnostic : Diagnostic)
  | setStatement (kind : Kind) (handler : StatementHandler)
  | setOperand (kind : Kind) (handler : OperandHandler)
  | setOperator (kind : Kind) (handler : OperatorHandler)
  | restore
  | read (reading : Reading)

/-- The parser that an operation leaves.  One that fails to enter a level stays as it is. -/
def Operation.apply : Operation → Parser → Parser
  | advance, parser => parser.advance
  | expect kind, parser => (parser.expect kind).2
  | expectNext kind, parser => (parser.expectNext kind).2
  | enter, parser => parser.enter.toOption.getD parser
  | leave, parser => parser.leave
  | record diagnostic, parser => parser.record diagnostic
  | setStatement kind handler, parser => parser.mapHandlers (.setStatement kind handler)
  | setOperand kind handler, parser => parser.mapHandlers (.setOperand kind handler)
  | setOperator kind handler, parser => parser.mapHandlers (.setOperator kind handler)
  | restore, parser => parser.mapHandlers .restore
  | read reading, parser => reading.apply parser

/-- The parser behind a list of operations. -/
def Operation.applyAll (operations : List Operation) (parser : Parser) : Parser :=
  operations.foldl (fun parser operation => operation.apply parser) parser

section Reading

variable {α : Type}

/-- Wherever a step that goes onward ends, the parser has been carried on. -/
theorem extends_run
    {step : Nat → Step α} (onward : ∀ fuel, (step fuel).Onward)
    (ends : ∀ parser : Parser, step parser.fuel parser ≠ .exhausted) (parser : Parser) :
    parser.Extends (run step ends parser).2 := by
  have met := onward parser.fuel parser
  unfold run
  split
  · rename_i outcome
    rw [outcome] at met
    exact met
  · rename_i outcome
    rw [outcome] at met
    exact met
  · rename_i outcome
    exact absurd outcome (ends parser)

/-- Where a value is read, the step that reads it is done. -/
theorem done_of_run
    {step : Nat → Step α} {ends : ∀ parser : Parser, step parser.fuel parser ≠ .exhausted}
    {parser ended : Parser} {value : α} (read : run step ends parser = (.ok value, ended)) :
    step parser.fuel parser = .done value ended := by
  unfold run at read
  split at read
  · rename_i outcome
    cases read
    exact outcome
  · cases read
  · rename_i outcome
    exact absurd outcome (ends parser)

theorem extends_readStatement (parser : Parser) :
    parser.Extends parser.readStatement.2 :=
  extends_run (fun fuel => (Grammar.onward_of_fuel fuel).statement) _ parser

theorem extends_readStatementOrRecord (parser : Parser) :
    parser.Extends parser.readStatementOrRecord.2 := by
  have read := extends_readStatement parser
  unfold readStatementOrRecord
  split
  · rename_i outcome
    rw [outcome] at read
    exact read
  · rename_i diagnostic ended outcome
    rw [outcome] at read
    exact read.trans (Extends.record diagnostic ended)

theorem extends_readStatements (parser : Parser) :
    parser.Extends parser.readStatements.2 := by
  obtain ⟨all, ended, done⟩ := parser.statements_eq_done
  have met := Grammar.statements_onward parser.fuel [] parser
  rw [done] at met
  rw [readStatements_of_done done]
  exact met

theorem extends_readProgram (parser : Parser) :
    parser.Extends parser.readProgram.2 :=
  (Extends.note _ parser).trans ((extends_readStatements _).trans (Extends.note _ _))

/-- Whatever is read, and whether it can be, the parser is only carried on. -/
theorem Reading.extends_apply (reading : Reading) (parser : Parser) :
    parser.Extends (reading.apply parser) := by
  cases reading with
  | expression power =>
      exact extends_run (fun fuel => (Grammar.onward_of_fuel fuel).expression power) _ parser
  | operand handler =>
      exact extends_run (fun fuel => (Grammar.onward_of_fuel fuel).operand handler) _ parser
  | operation handler left power =>
      exact extends_run
        (fun fuel => (Grammar.onward_of_fuel fuel).operation handler left power) _ parser
  | statement =>
      exact extends_readStatement parser
  | statementBy handler =>
      exact extends_run (fun fuel => (Grammar.onward_of_fuel fuel).statementBy handler) _ parser
  | statementOrRecord =>
      exact extends_readStatementOrRecord parser
  | block =>
      exact extends_run (fun fuel => (Grammar.onward_of_fuel fuel).block) _ parser
  | program =>
      exact extends_readProgram parser

end Reading

/-- A parser somewhere in a text, with no more expressions begun than may be. -/
structure StandsIn (parser : Parser) (source : String) : Prop where
  tokens : parser.stream.tokens <:+ Token.scan 0 source.toList
  stop : parser.stream.stop = source.utf8ByteSize
  depth : parser.depth ≤ nestingLimit

/-- How many tokens of a text a parser has passed. -/
def place (source : String) (parser : Parser) : Nat :=
  (Token.scan 0 source.toList).length - parser.remaining

section Operations

variable {source : String} {parser : Parser}

theorem standsIn_ofSource (source : String) (handlers : Handlers) :
    StandsIn { ofSource source with handlers } source :=
  ⟨List.suffix_refl _, Text.byteLength_toList source, Nat.zero_le _⟩

/-- No operation goes back, and none exceeds the limit. -/
theorem StandsIn.apply (h : parser.StandsIn source) (operation : Operation) :
    (operation.apply parser).StandsIn source ∧
      parser.place source ≤ (operation.apply parser).place source := by
  have carried (ended : Parser) (tokens : ended.stream.tokens <:+ parser.stream.tokens)
      (stop : ended.stream.stop = parser.stream.stop) (depth : ended.depth ≤ nestingLimit) :
      ended.StandsIn source ∧ parser.place source ≤ ended.place source :=
    ⟨⟨tokens.trans h.tokens, stop.trans h.stop, depth⟩,
      Nat.sub_le_sub_left tokens.length_le _⟩
  have onward (ended : Parser) (extension : parser.Extends ended) :
      ended.StandsIn source ∧ parser.place source ≤ ended.place source :=
    carried ended extension.tokens extension.stop (extension.depth ▸ h.depth)
  have stay (ended : Parser) (stream : ended.stream = parser.stream)
      (depth : ended.depth ≤ nestingLimit) :
      ended.StandsIn source ∧ parser.place source ≤ ended.place source :=
    carried ended (stream ▸ List.suffix_refl _) (stream ▸ rfl) depth
  cases operation with
  | advance =>
      exact onward _ (Extends.advance parser)
  | expect kind =>
      by_cases same : parser.current.kind = kind
      · simpa only [Operation.apply, expect, same, if_true] using onward _ (Extends.advance parser)
      · simpa only [Operation.apply, expect, same, if_false] using onward _ (Extends.refl parser)
  | expectNext kind =>
      by_cases same : parser.next.kind = kind
      · simpa only [Operation.apply, expectNext, same, if_true] using
          onward _ (Extends.advance parser)
      · simpa only [Operation.apply, expectNext, same, if_false] using
          onward _ (Extends.refl parser)
  | enter =>
      by_cases room : parser.depth < nestingLimit
      · have inner : parser.enter = .ok { parser with depth := parser.depth + 1 } := by
          simp only [enter, room, if_true]
        rw [Operation.apply, inner]
        exact stay _ rfl room
      · have full : parser.enter.toOption = none := by
          simp only [enter, room, if_false]
          rfl
        rw [Operation.apply, full]
        exact stay _ rfl h.depth
  | leave =>
      exact stay _ rfl (Nat.le_trans (Nat.sub_le _ _) h.depth)
  | record diagnostic =>
      exact onward _ (Extends.record diagnostic parser)
  | setStatement | setOperand | setOperator | restore =>
      exact stay _ rfl h.depth
  | read reading =>
      exact onward _ (reading.extends_apply parser)

/-- A whole list of operations keeps within the text and the limit. -/
theorem StandsIn.applyAll (h : parser.StandsIn source) (operations : List Operation) :
    (Operation.applyAll operations parser).StandsIn source := by
  induction operations generalizing parser with
  | nil =>
      exact h
  | cons operation operations ih =>
      exact ih (h.apply operation).1

/-- What a parser has before it are the tokens of the text from its place on. -/
theorem StandsIn.tokens_eq_drop (h : parser.StandsIn source) :
    parser.stream.tokens = (Token.scan 0 source.toList).drop (parser.place source) :=
  List.suffix_iff_eq_drop.mp h.tokens

theorem StandsIn.current_eq (h : parser.StandsIn source) :
    parser.current = Token.ofSource source (parser.place source) := by
  rw [Token.ofSource_eq_headD, ← h.tokens_eq_drop, ← h.stop]
  rfl

theorem StandsIn.next_eq (h : parser.StandsIn source) :
    parser.next = Token.ofSource source (parser.place source + 1) := by
  rw [Token.ofSource_eq_headD, ← List.drop_drop, ← h.tokens_eq_drop, List.drop_one, ← h.stop]
  rfl

end Operations

/-- Whatever has been done with a parser of a text, it holds the two tokens of the window on the
text at its place, the tokens behind them are those that the cursor of the window leaves, and its
depth is within the limit.  Nothing that can be done next goes back.  Reading a part of the text
leaves the depth, the handlers and the text as they were, and only adds diagnostics. -/
theorem operations_invariant
    (source : String) (handlers : Handlers) (operations : List Operation) :
    let parser := Operation.applyAll operations { ofSource source with handlers }
    (∃ window, Window.after? source (parser.place source) = some window ∧
      window.Shows source (parser.place source) ∧
      parser.current = window.current ∧ parser.next = window.next ∧
      window.cursor.Leaves source (parser.stream.tokens.drop 2)) ∧
    parser.depth ≤ 100 ∧
    (∀ operation : Operation, parser.place source ≤ (operation.apply parser).place source) ∧
    ∀ reading : Reading,
      (reading.apply parser).depth = parser.depth ∧
      (reading.apply parser).handlers = parser.handlers ∧
      (reading.apply parser).stream.stop = parser.stream.stop ∧
      parser.diagnostics.toList <+: (reading.apply parser).diagnostics.toList := by
  intro parser
  have stands : parser.StandsIn source :=
    (standsIn_ofSource source handlers).applyAll operations
  refine ⟨?_, stands.depth, fun operation => (stands.apply operation).2, fun reading => ?_⟩
  · obtain ⟨window, found, shows, leaves⟩ :=
      Window.exists_after? source (parser.place source)
    refine ⟨window, found, shows, stands.current_eq.trans shows.current.symm,
      stands.next_eq.trans shows.next.symm, ?_⟩
    rw [stands.tokens_eq_drop, List.drop_drop]
    exact leaves
  · have extension := reading.extends_apply parser
    exact ⟨extension.depth, extension.handlers, extension.stop, extension.diagnostics⟩

end Parser
end LetLang
