import LetLang.Parser.Grammar
import LetLang.Parser.Outcome

/-!
# Steps go onward

Whatever a step of the grammar ends in, it has not gone back in the tokens, it has left the
handlers and the depth as they were, and it has added diagnostics only behind those recorded
before.  This holds of the steps from which the others are put together, it is kept by each way
to put steps together, and so it holds of the whole grammar by induction on the fuel.
-/

namespace LetLang

namespace Parser

/-- A parser that another one may have been carried on to. -/
structure Extends (begun ended : Parser) : Prop where
  tokens : ended.stream.tokens <:+ begun.stream.tokens
  stop : ended.stream.stop = begun.stream.stop
  handlers : ended.handlers = begun.handlers
  depth : ended.depth = begun.depth
  diagnostics : begun.diagnostics.toList <+: ended.diagnostics.toList

namespace Extends

variable {first second third : Parser}

theorem refl (parser : Parser) :
    parser.Extends parser :=
  ⟨List.suffix_refl _, rfl, rfl, rfl, List.prefix_refl _⟩

theorem trans
    (early : first.Extends second) (late : second.Extends third) :
    first.Extends third :=
  ⟨late.tokens.trans early.tokens,
    late.stop.trans early.stop,
    late.handlers.trans early.handlers,
    late.depth.trans early.depth,
    early.diagnostics.trans late.diagnostics⟩

theorem advance (parser : Parser) :
    parser.Extends parser.advance :=
  ⟨List.tail_suffix _, rfl, rfl, rfl, List.prefix_refl _⟩

theorem note (event : Event) (parser : Parser) :
    parser.Extends (parser.note event) :=
  ⟨List.suffix_refl _, rfl, rfl, rfl, List.prefix_refl _⟩

theorem record (diagnostic : Diagnostic) (parser : Parser) :
    parser.Extends (parser.record diagnostic) :=
  ⟨List.suffix_refl _, rfl, rfl, rfl, by simp [Parser.record]⟩

/-- A token that is still there was there before. -/
theorem mem_tokens
    (h : first.Extends second) {token : Token}
    (mem : token ∈ second.stream.tokens) :
    token ∈ first.stream.tokens :=
  h.tokens.subset mem

/-- Where nothing was recorded on the whole way, nothing was recorded on its first part, and
nothing on its second. -/
theorem diagnostics_eq
    (early : first.Extends second) (late : second.Extends third)
    (same : third.diagnostics = first.diagnostics) :
    second.diagnostics = first.diagnostics ∧
      third.diagnostics = second.diagnostics := by
  have back : second.diagnostics.toList <+: first.diagnostics.toList := by
    rw [← same]
    exact late.diagnostics
  have whole : second.diagnostics = first.diagnostics :=
    Array.toList_inj.mp (back.eq_of_length_le early.diagnostics.length_le)
  exact ⟨whole, same.trans whole.symm⟩

end Extends

end Parser

namespace Step

variable {α β : Type}

/-- A step goes onward from wherever it is begun, and however it ends. -/
def Onward (step : Step α) : Prop :=
  ∀ parser : Parser,
    (step parser).Meets
      (fun _ ended => parser.Extends ended)
      (fun _ ended => parser.Extends ended)

theorem onward_outOfFuel :
    (outOfFuel : Step α).Onward :=
  fun _ => trivial

theorem onward_pure (value : α) :
    (pure value : Step α).Onward :=
  fun parser => Parser.Extends.refl parser

theorem onward_fail (cause : Cause) (position : Nat) :
    (fail cause position : Step α).Onward :=
  fun parser => Parser.Extends.refl parser

theorem onward_read (view : Parser → α) :
    (read view).Onward :=
  fun parser => Parser.Extends.refl parser

theorem onward_modify
    {change : Parser → Parser}
    (h : ∀ parser : Parser, parser.Extends (change parser)) :
    (modify change).Onward :=
  h

theorem onward_note (event : Event) :
    (modify (Parser.note event)).Onward :=
  onward_modify (Parser.Extends.note event)

theorem onward_take :
    take.Onward :=
  Parser.Extends.advance

theorem onward_advance :
    advance.Onward :=
  Parser.Extends.advance

theorem onward_expect (kind : Kind) :
    (expect kind).Onward := by
  intro parser
  by_cases same : parser.current.kind = kind
  · simpa [expect, ofResult, Parser.expect, same, Outcome.Meets] using
      Parser.Extends.advance parser
  · simpa [expect, ofResult, Parser.expect, same, Outcome.Meets] using
      Parser.Extends.refl parser

theorem onward_expectNext (kind : Kind) :
    (expectNext kind).Onward := by
  intro parser
  by_cases same : parser.next.kind = kind
  · simpa [expectNext, ofResult, Parser.expectNext, same, Outcome.Meets] using
      Parser.Extends.advance parser
  · simpa [expectNext, ofResult, Parser.expectNext, same, Outcome.Meets] using
      Parser.Extends.refl parser

theorem onward_bind
    {step : Step α} {next : α → Step β}
    (first : step.Onward) (rest : ∀ value, (next value).Onward) :
    (step >>= next).Onward := by
  intro parser
  refine meets_bind (first parser) ?_ (fun _ _ extended => extended)
  intro value ended extended
  exact (rest value ended).mono
    (fun _ _ => extended.trans) (fun _ _ => extended.trans)

theorem onward_nested
    {step : Step α} (h : step.Onward) :
    (nested step).Onward := by
  intro parser
  refine meets_nested ?_ (fun _ => Parser.Extends.refl parser)
  intro _
  have leave (ended : Parser)
      (inside : Parser.Extends { parser with depth := parser.depth + 1 } ended) :
      parser.Extends ended.leave :=
    ⟨inside.tokens, inside.stop, inside.handlers,
      by simp [Parser.leave, inside.depth], inside.diagnostics⟩
  exact (h _).mono (fun _ => leave) (fun _ => leave)

theorem onward_recovering
    {step : Step α} (h : step.Onward) :
    (recovering step).Onward := by
  intro parser
  refine meets_recovering ((h parser).mono (fun _ _ extended => extended) ?_)
  intro diagnostic ended extended
  exact extended.trans (Parser.Extends.record diagnostic ended)

theorem onward_ite
    {condition : Prop} [Decidable condition] {yes no : Step α}
    (first : yes.Onward) (second : no.Onward) :
    (if condition then yes else no).Onward := by
  split
  · exact first
  · exact second

end Step

namespace Grammar

open Step

/-- The steps of the grammar with a number of units of fuel all go onward. -/
structure Onward (fuel : Nat) : Prop where
  expression : ∀ power, (expression fuel power).Onward
  operations : ∀ power left, (operations fuel power left).Onward
  operation : ∀ handler left power, (operation fuel handler left power).Onward
  operand : ∀ handler, (operand fuel handler).Onward
  block : (block fuel).Onward
  blockStatements : ∀ found, (blockStatements fuel found).Onward
  statement : (statement fuel).Onward
  statementBy : ∀ handler, (statementBy fuel handler).Onward

section Units

variable {fuel : Nat}

theorem expression_onward (h : Onward fuel) (power : Power) :
    (expression (fuel + 1) power).Onward := by
  unfold expression
  refine onward_bind (onward_read _) (fun token => ?_)
  refine onward_bind (onward_note _) (fun _ => onward_nested ?_)
  refine onward_bind (onward_read _) (fun handlers => ?_)
  cases handlers.operand token.kind with
  | none =>
      exact onward_fail _ _
  | some handler =>
      exact onward_bind (h.operand handler) (h.operations power)

theorem operations_onward (h : Onward fuel) (power : Power) (left : Expr) :
    (operations (fuel + 1) power left).Onward := by
  unfold operations
  refine onward_bind (onward_read _) (fun token => onward_ite ?_ (onward_pure _))
  refine onward_bind (onward_read _) (fun handlers => ?_)
  cases handlers.operator token.kind with
  | none =>
      exact onward_pure _
  | some handler =>
      refine onward_bind onward_advance (fun _ => ?_)
      exact onward_bind (h.operation handler left _) (h.operations power)

theorem operation_onward (h : Onward fuel)
    (handler : OperatorHandler) (left : Expr) (power : Power) :
    (operation (fuel + 1) handler left power).Onward := by
  unfold operation
  refine onward_bind onward_take (fun token => ?_)
  cases handler with
  | binary =>
      exact onward_bind (h.expression power) (fun _ => onward_pure _)
  | binaryLowest =>
      exact onward_bind (h.expression .lowest) (fun _ => onward_pure _)

theorem alternative_onward (h : Onward fuel) (whole : Option Block → Expr) :
    (alternative (block fuel) whole).Onward := by
  refine onward_bind (onward_read _) (fun next => onward_ite ?_ (onward_pure _))
  refine onward_bind onward_advance (fun _ => ?_)
  refine onward_bind (onward_expectNext _) (fun _ => ?_)
  exact onward_bind h.block (fun _ => onward_pure _)

theorem branches_onward (h : Onward fuel) (token : Token) (condition : Expr) :
    (branches (block fuel) token condition).Onward := by
  refine onward_bind (onward_expectNext _) (fun _ => ?_)
  refine onward_bind (onward_expectNext _) (fun _ => ?_)
  exact onward_bind h.block (fun consequence => alternative_onward h _)

theorem operand_onward (h : Onward fuel) (handler : OperandHandler) :
    (operand (fuel + 1) handler).Onward := by
  cases handler with
  | identifier =>
      exact onward_bind (onward_read _) (fun _ => onward_pure _)
  | integer =>
      refine onward_bind (onward_read _) (fun token => ?_)
      split
      · exact onward_pure _
      · exact onward_fail _ _
  | float =>
      refine onward_bind (onward_read _) (fun token => ?_)
      split
      · exact onward_pure _
      · exact onward_fail _ _
  | boolean =>
      exact onward_bind (onward_read _) (fun _ => onward_pure _)
  | unary =>
      refine onward_bind onward_take (fun token => ?_)
      exact onward_bind (h.expression .unary) (fun _ => onward_pure _)
  | group =>
      refine onward_bind onward_advance (fun _ => ?_)
      refine onward_bind (h.expression .lowest) (fun inner => ?_)
      exact onward_bind (onward_expectNext _) (fun _ => onward_pure _)
  | conditional =>
      refine onward_bind (onward_read _) (fun token => ?_)
      refine onward_bind (onward_expectNext _) (fun _ => ?_)
      refine onward_bind onward_advance (fun _ => ?_)
      exact onward_bind (h.expression .lowest) (branches_onward h token)

theorem block_onward (h : Onward fuel) :
    (block (fuel + 1)).Onward := by
  unfold block
  refine onward_bind onward_take (fun token => ?_)
  refine onward_bind (h.blockStatements []) (fun statements => ?_)
  refine onward_bind (onward_read _) (fun last => ?_)
  exact onward_ite (onward_fail _ _) (onward_pure _)

/-- Behind a statement of a block the block goes on, whether the statement was read or not. -/
theorem blockStatements_resume_onward (h : Onward fuel) (found : List Stmt)
    (read : Option Stmt) :
    (match read with
      | some statement => do
          Step.advance
          blockStatements fuel (statement :: found)
      | none => do
          let stopped ← Step.current
          if stopped.kind = .closeBrace then
            blockStatements fuel found
          else
            Step.advance
            blockStatements fuel found : Step (List Stmt)).Onward := by
  cases read with
  | some statement =>
      exact onward_bind onward_advance (fun _ => h.blockStatements _)
  | none =>
      refine onward_bind (onward_read _) (fun stopped => ?_)
      refine onward_ite (h.blockStatements _) ?_
      exact onward_bind onward_advance (fun _ => h.blockStatements _)

theorem blockStatements_onward (h : Onward fuel) (found : List Stmt) :
    (blockStatements (fuel + 1) found).Onward := by
  unfold blockStatements
  refine onward_bind (onward_read _) (fun token => onward_ite (onward_pure _) ?_)
  exact onward_bind (onward_recovering h.statement) (blockStatements_resume_onward h found)

theorem statement_onward (h : Onward fuel) :
    (statement (fuel + 1)).Onward := by
  unfold statement
  refine onward_bind (onward_read _) (fun token => ?_)
  refine onward_bind (onward_note _) (fun _ => ?_)
  exact onward_bind (onward_read _) (fun handlers => h.statementBy _)

theorem statementBy_onward (h : Onward fuel) (handler : StatementHandler) :
    (statementBy (fuel + 1) handler).Onward := by
  cases handler with
  | binding =>
      refine onward_bind (onward_expect _) (fun token => ?_)
      refine onward_bind (onward_expect _) (fun name => ?_)
      refine onward_bind (onward_expect _) (fun _ => ?_)
      refine onward_bind (h.expression .lowest) (fun value => ?_)
      exact onward_bind (onward_expectNext _) (fun _ => onward_pure _)
  | returning =>
      refine onward_bind (onward_expect _) (fun token => ?_)
      refine onward_bind (onward_read _) (fun first => onward_ite (onward_pure _) ?_)
      refine onward_bind (h.expression .lowest) (fun value => ?_)
      exact onward_bind (onward_expectNext _) (fun _ => onward_pure _)
  | expression =>
      refine onward_bind (onward_read _) (fun token => ?_)
      refine onward_bind (h.expression .lowest) (fun value => ?_)
      refine onward_bind (onward_read _) (fun next => ?_)
      exact onward_ite
        (onward_bind onward_advance (fun _ => onward_pure _)) (onward_pure _)
  | block =>
      exact onward_bind h.block (fun _ => onward_pure _)

end Units

/-- All steps of the grammar go onward. -/
theorem onward_of_fuel (fuel : Nat) :
    Onward fuel := by
  induction fuel with
  | zero =>
      exact
        { expression := fun _ => onward_outOfFuel
          operations := fun _ _ => onward_outOfFuel
          operation := fun _ _ _ => onward_outOfFuel
          operand := fun handler => by cases handler <;> exact onward_outOfFuel
          block := onward_outOfFuel
          blockStatements := fun _ => onward_outOfFuel
          statement := onward_outOfFuel
          statementBy := fun handler => by cases handler <;> exact onward_outOfFuel }
  | succ fuel h =>
      exact
        { expression := expression_onward h
          operations := operations_onward h
          operation := operation_onward h
          operand := operand_onward h
          block := block_onward h
          blockStatements := blockStatements_onward h
          statement := statement_onward h
          statementBy := statementBy_onward h }

theorem statements_onward (fuel : Nat) (found : List Stmt) :
    (statements fuel found).Onward := by
  induction fuel generalizing found with
  | zero =>
      exact onward_outOfFuel
  | succ fuel ih =>
      unfold statements
      refine onward_bind (onward_read _) (fun token => onward_ite (onward_pure _) ?_)
      refine onward_bind (onward_recovering (onward_of_fuel fuel).statement) (fun read => ?_)
      exact onward_bind onward_advance (fun _ => ih _)

end Grammar
end LetLang
