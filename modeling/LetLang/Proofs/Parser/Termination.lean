import LetLang.Parser.Fuel
import LetLang.Proofs.Parser.Refuel

/-!
# Every call has less to do

**Input.** A task of the grammar at a parser, whose handlers may be any.

**Result.** `Call.terminates`: every call that is made has a smaller measure, the list of the calls
that are made is complete, and with any number of units of fuel from a bound on, which the number of
tokens gives, a call comes to one and the same end.
-/

namespace LetLang

namespace Task

/-- More fuel changes the end of no task that has had enough. -/
theorem step_below (task : Task) {fuel more : Nat} (h : fuel ≤ more) :
    (task.step fuel).Below (task.step more) := by
  induction h with
  | refl =>
      exact .refl _
  | @step more _ ih =>
      refine ih.trans ?_
      have refuels := Grammar.refuels_of_fuel more
      cases task with
      | expression power =>
          exact refuels.expression power
      | operations power left =>
          exact refuels.operations power left
      | operation handler left power =>
          exact refuels.operation handler left power
      | operand handler =>
          exact refuels.operand handler
      | block =>
          exact refuels.block
      | blockStatements found =>
          exact refuels.blockStatements found
      | statement =>
          exact refuels.statement
      | statementBy handler =>
          exact refuels.statementBy handler
      | statements found =>
          exact Grammar.statements_refuels more found

end Task

namespace Parser

/-- What is needed at most is known from the number of tokens. -/
theorem need_le_tokens (parser : Parser) :
    parser.need ≤ 4 * parser.stream.tokens.length + 200 := by
  simp only [need, remaining, levels, nestingLimit]
  omega

end Parser

namespace Call

/-- The measure of a call is bounded by the number of tokens. -/
theorem measure_le (call : Call) :
    call.measure ≤ 4 * call.parser.stream.tokens.length + 205 :=
  calc call.measure ≤ call.parser.need + 5 := call.measure_le_need
    _ ≤ 4 * call.parser.stream.tokens.length + 205 :=
        Nat.add_le_add_right call.parser.need_le_tokens 5

/-- Every call ends, whatever the handlers of its parser are and wherever this stands: each call
that it makes has less to do, its fuel can run out nowhere else, and with any number of units from
a bound on that there is of the number of tokens it comes to one and the same end. -/
theorem terminates (call : Call) :
    (∀ callee, call.Makes callee → callee.measure < call.measure) ∧
    (∀ fuel, call.run (fuel + 1) = .exhausted →
      ∃ callee, call.Makes callee ∧ callee.run fuel = .exhausted) ∧
    ∃ outcome, outcome ≠ .exhausted ∧
      ∀ fuel, 4 * call.parser.stream.tokens.length + 205 ≤ fuel → call.run fuel = outcome := by
  refine ⟨fun callee => makes_measure_lt, fun fuel => exists_makes_of_exhausted, ?_⟩
  have ends := run_ne_exhausted call.measure_le
  refine ⟨_, ends, ?_⟩
  intro fuel enough
  rcases call.task.step_below enough call.parser with exhausted | same
  · exact absurd exhausted ends
  · exact same

/-- Where a group is entered for the end of the input, an expression without tokens begins the
next one where it stands, until no level is left. -/
theorem terminates_group_at_end :
    ∃ ended : Parser, ∀ fuel, 205 ≤ fuel →
      Grammar.expression fuel .lowest
        ⟨⟨[], 0⟩, Handlers.standard.setOperand .eof .group, 98, #[], #[]⟩ =
          .failed ⟨.nestingTooDeep 100, 0⟩ ended := by
  obtain ⟨outcome, -, same⟩ := (terminates ⟨.expression .lowest,
    ⟨⟨[], 0⟩, Handlers.standard.setOperand .eof .group, 98, #[], #[]⟩⟩).2.2
  have known : ∃ ended, outcome = .failed ⟨.nestingTooDeep 100, 0⟩ ended :=
    ⟨_, (same 205 (by decide)).symm.trans rfl⟩
  obtain ⟨ended, known⟩ := known
  exact ⟨ended, fun fuel enough => (same fuel enough).trans known⟩

end Call
end LetLang
