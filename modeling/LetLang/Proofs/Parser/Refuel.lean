import LetLang.Parser.Grammar

/-!
# More fuel changes nothing

A step that has had fuel enough ends in the same value or diagnostic, and leaves the same parser
behind, with every larger number of units.  So what a step ends in does not depend on its fuel,
but for the one question whether this was enough.

Steps are ordered by how far they go: one is below another if it is exhausted wherever the two
differ.  Each way to put steps together keeps that order, and so does the grammar, whatever the
handlers are, by induction on the fuel.
-/

namespace LetLang

namespace Step

variable {α β : Type}

/-- A step ends as another one does, unless it is exhausted. -/
def Below (step step' : Step α) : Prop :=
  ∀ parser, step parser = .exhausted ∨ step' parser = step parser

theorem Below.refl (step : Step α) :
    step.Below step :=
  fun _ => .inr rfl

theorem Below.trans
    {first second third : Step α}
    (early : first.Below second) (late : second.Below third) :
    first.Below third := by
  intro parser
  rcases early parser with exhausted | same
  · exact .inl exhausted
  · rcases late parser with exhausted | same'
    · exact .inl (same.symm.trans exhausted)
    · exact .inr (same'.trans same)

theorem below_outOfFuel (step : Step α) :
    outOfFuel.Below step :=
  fun _ => .inl rfl

theorem below_bind
    {step step' : Step α} {next next' : α → Step β}
    (first : step.Below step') (rest : ∀ value, (next value).Below (next' value)) :
    (step >>= next).Below (step' >>= next') := by
  intro parser
  show step.andThen next parser = .exhausted ∨
    step'.andThen next' parser = step.andThen next parser
  unfold andThen
  rcases first parser with exhausted | same
  · rw [exhausted]
    exact .inl rfl
  · rw [same]
    cases step parser with
    | done value ended =>
        exact rest value ended
    | failed diagnostic ended =>
        exact .inr rfl
    | exhausted =>
        exact .inl rfl

theorem below_nested
    {step step' : Step α} (h : step.Below step') :
    (nested step).Below (nested step') := by
  intro parser
  unfold nested
  cases parser.enter with
  | error diagnostic =>
      exact .inr rfl
  | ok inner =>
      simp only
      rcases h inner with exhausted | same
      · rw [exhausted]
        exact .inl rfl
      · rw [same]
        exact .inr rfl

theorem below_recovering
    {step step' : Step α} (h : step.Below step') :
    (recovering step).Below (recovering step') := by
  intro parser
  unfold recovering
  rcases h parser with exhausted | same
  · rw [exhausted]
    exact .inl rfl
  · rw [same]
    exact .inr rfl

theorem below_ite
    {condition : Prop} [Decidable condition] {yes yes' no no' : Step α}
    (first : yes.Below yes') (second : no.Below no') :
    (if condition then yes else no).Below (if condition then yes' else no') := by
  split
  · exact first
  · exact second

end Step

namespace Grammar

open Step

/-- One more unit of fuel changes the end of no step of the grammar that has had enough. -/
structure Refuels (fuel : Nat) : Prop where
  expression : ∀ power, (expression fuel power).Below (expression (fuel + 1) power)
  operations : ∀ power left,
    (operations fuel power left).Below (operations (fuel + 1) power left)
  operation : ∀ handler left power,
    (operation fuel handler left power).Below (operation (fuel + 1) handler left power)
  operand : ∀ handler, (operand fuel handler).Below (operand (fuel + 1) handler)
  block : (block fuel).Below (block (fuel + 1))
  blockStatements : ∀ found,
    (blockStatements fuel found).Below (blockStatements (fuel + 1) found)
  statement : (statement fuel).Below (statement (fuel + 1))
  statementBy : ∀ handler,
    (statementBy fuel handler).Below (statementBy (fuel + 1) handler)

section Units

variable {fuel : Nat}

theorem expression_refuels (h : Refuels fuel) (power : Power) :
    (expression (fuel + 1) power).Below (expression (fuel + 1 + 1) power) := by
  unfold expression
  refine below_bind (.refl _) (fun token => ?_)
  refine below_bind (.refl _) (fun _ => below_nested ?_)
  refine below_bind (.refl _) (fun handlers => ?_)
  cases handlers.operand token.kind with
  | none =>
      exact .refl _
  | some handler =>
      exact below_bind (h.operand handler) (h.operations power)

theorem operations_refuels (h : Refuels fuel) (power : Power) (left : Expr) :
    (operations (fuel + 1) power left).Below (operations (fuel + 1 + 1) power left) := by
  unfold operations
  refine below_bind (.refl _) (fun token => below_ite ?_ (.refl _))
  refine below_bind (.refl _) (fun handlers => ?_)
  cases handlers.operator token.kind with
  | none =>
      exact .refl _
  | some handler =>
      refine below_bind (.refl _) (fun _ => ?_)
      exact below_bind (h.operation handler left _) (h.operations power)

theorem operation_refuels (h : Refuels fuel)
    (handler : OperatorHandler) (left : Expr) (power : Power) :
    (operation (fuel + 1) handler left power).Below
      (operation (fuel + 1 + 1) handler left power) := by
  unfold operation
  refine below_bind (.refl _) (fun token => ?_)
  cases handler with
  | binary =>
      exact below_bind (h.expression power) (fun _ => .refl _)
  | binaryLowest =>
      exact below_bind (h.expression .lowest) (fun _ => .refl _)

theorem branches_refuels (h : Refuels fuel) (token : Token) (condition : Expr) :
    (branches (block fuel) token condition).Below
      (branches (block (fuel + 1)) token condition) := by
  refine below_bind (.refl _) (fun _ => ?_)
  refine below_bind (.refl _) (fun _ => ?_)
  refine below_bind h.block (fun consequence => ?_)
  refine below_bind (.refl _) (fun next => below_ite ?_ (.refl _))
  refine below_bind (.refl _) (fun _ => ?_)
  refine below_bind (.refl _) (fun _ => ?_)
  exact below_bind h.block (fun _ => .refl _)

theorem operand_refuels (h : Refuels fuel) (handler : OperandHandler) :
    (operand (fuel + 1) handler).Below (operand (fuel + 1 + 1) handler) := by
  cases handler with
  | identifier =>
      exact .refl _
  | integer =>
      exact .refl _
  | float =>
      exact .refl _
  | boolean =>
      exact .refl _
  | unary =>
      refine below_bind (.refl _) (fun token => ?_)
      exact below_bind (h.expression .unary) (fun _ => .refl _)
  | group =>
      refine below_bind (.refl _) (fun _ => ?_)
      exact below_bind (h.expression .lowest) (fun inner => .refl _)
  | conditional =>
      refine below_bind (.refl _) (fun token => ?_)
      refine below_bind (.refl _) (fun _ => ?_)
      refine below_bind (.refl _) (fun _ => ?_)
      exact below_bind (h.expression .lowest) (branches_refuels h token)

theorem block_refuels (h : Refuels fuel) :
    (block (fuel + 1)).Below (block (fuel + 1 + 1)) := by
  unfold block
  refine below_bind (.refl _) (fun token => ?_)
  exact below_bind (h.blockStatements []) (fun statements => .refl _)

theorem blockStatements_refuels (h : Refuels fuel) (found : List Stmt) :
    (blockStatements (fuel + 1) found).Below (blockStatements (fuel + 1 + 1) found) := by
  unfold blockStatements
  refine below_bind (.refl _) (fun token => below_ite (.refl _) ?_)
  refine below_bind (below_recovering h.statement) (fun read => ?_)
  cases read with
  | some statement =>
      exact below_bind (.refl _) (fun _ => h.blockStatements _)
  | none =>
      refine below_bind (.refl _) (fun stopped => ?_)
      refine below_ite (h.blockStatements _) ?_
      exact below_bind (.refl _) (fun _ => h.blockStatements _)

theorem statement_refuels (h : Refuels fuel) :
    (statement (fuel + 1)).Below (statement (fuel + 1 + 1)) := by
  unfold statement
  refine below_bind (.refl _) (fun token => ?_)
  refine below_bind (.refl _) (fun _ => ?_)
  exact below_bind (.refl _) (fun handlers => h.statementBy _)

theorem statementBy_refuels (h : Refuels fuel) (handler : StatementHandler) :
    (statementBy (fuel + 1) handler).Below (statementBy (fuel + 1 + 1) handler) := by
  cases handler with
  | binding =>
      refine below_bind (.refl _) (fun token => ?_)
      refine below_bind (.refl _) (fun name => ?_)
      refine below_bind (.refl _) (fun _ => ?_)
      exact below_bind (h.expression .lowest) (fun value => .refl _)
  | returning =>
      refine below_bind (.refl _) (fun token => ?_)
      refine below_bind (.refl _) (fun first => below_ite (.refl _) ?_)
      exact below_bind (h.expression .lowest) (fun value => .refl _)
  | expression =>
      refine below_bind (.refl _) (fun token => ?_)
      exact below_bind (h.expression .lowest) (fun value => .refl _)
  | block =>
      exact below_bind h.block (fun _ => .refl _)

end Units

/-- One more unit of fuel changes the end of no step that has had enough. -/
theorem refuels_of_fuel (fuel : Nat) :
    Refuels fuel := by
  induction fuel with
  | zero =>
      exact
        { expression := fun _ => below_outOfFuel _
          operations := fun _ _ => below_outOfFuel _
          operation := fun _ _ _ => below_outOfFuel _
          operand := fun handler => by cases handler <;> exact below_outOfFuel _
          block := below_outOfFuel _
          blockStatements := fun _ => below_outOfFuel _
          statement := below_outOfFuel _
          statementBy := fun handler => by cases handler <;> exact below_outOfFuel _ }
  | succ fuel h =>
      exact
        { expression := expression_refuels h
          operations := operations_refuels h
          operation := operation_refuels h
          operand := operand_refuels h
          block := block_refuels h
          blockStatements := blockStatements_refuels h
          statement := statement_refuels h
          statementBy := statementBy_refuels h }

theorem statements_refuels (fuel : Nat) (found : List Stmt) :
    (statements fuel found).Below (statements (fuel + 1) found) := by
  induction fuel generalizing found with
  | zero =>
      exact below_outOfFuel _
  | succ fuel ih =>
      unfold statements
      refine below_bind (.refl _) (fun token => below_ite (.refl _) ?_)
      refine below_bind (below_recovering (refuels_of_fuel fuel).statement) (fun read => ?_)
      exact below_bind (.refl _) (fun _ => ih _)

end Grammar
end LetLang
