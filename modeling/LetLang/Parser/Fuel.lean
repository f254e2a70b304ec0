import LetLang.Parser.Calls
import LetLang.Parser.Onward

/-!
# How much fuel a step needs

The grammar calls itself in many ways, and no single number goes down along all of them.  At the
end of the input nothing is passed any more, so an operand that is entered for the end of the input
begins another expression at the same place; a block that is entered as a statement is read without
a deeper level; and the loop over the statements of a block goes round once without moving when a
statement has failed at a closing brace.

**Measure.** Four units for every token that is left, two for every level of nesting that is left,
and a few that order the tasks at one place.  Where a loop over statements has come to its end it
needs one unit only, which pays for the round without a move.  Since no step goes back in the tokens
and each one leaves the depth as it was, nothing that has been read adds to it.

**Result.** `Call.makes_measure_lt`: every call that is made has a smaller measure.  So a call is
not exhausted with as many units of fuel, `Call.run_ne_exhausted`, whatever the handlers are.
-/

namespace LetLang

namespace Parser

/-- The number of tokens that have not been passed. -/
def remaining (parser : Parser) : Nat :=
  parser.stream.tokens.length

/-- The number of expressions that may still be begun one inside the other. -/
def levels (parser : Parser) : Nat :=
  nestingLimit - parser.depth

/-- The bound on fuel, but for a number of units that depends on the step. -/
def need (parser : Parser) : Nat :=
  4 * parser.remaining + 2 * parser.levels

theorem remaining_advance (parser : Parser) :
    parser.advance.remaining = parser.remaining - 1 := by
  simp [remaining, advance, TokenStream.advance]

/-- A parser needs no more further on. -/
theorem Extends.need_le {begun ended : Parser} (h : begun.Extends ended) :
    ended.need ≤ begun.need := by
  have remaining : ended.remaining ≤ begun.remaining := h.tokens.length_le
  simp only [need, levels, h.depth]
  omega

theorem need_advance_le (parser : Parser) :
    parser.advance.need ≤ parser.need :=
  (Extends.advance parser).need_le

/-- Before a token that is not the end of the input four units less are needed. -/
theorem need_advance_of_next {parser : Parser} (more : parser.next.kind ≠ .eof) :
    parser.advance.need + 4 ≤ parser.need := by
  have behind : 1 < parser.remaining := by
    cases tokens : parser.stream.tokens with
    | nil =>
        exact absurd (by simp [next, TokenStream.next, tokens, Token.endOfInput]) more
    | cons token rest =>
        cases rest with
        | nil =>
            exact absurd (by simp [next, TokenStream.next, tokens, Token.endOfInput]) more
        | cons token rest =>
            simp [remaining, tokens]
  have passed := parser.remaining_advance
  have same : parser.advance.levels = parser.levels := rfl
  simp only [need, same]
  omega

/-- One level is left less inside a new expression. -/
theorem need_within {parser : Parser} (room : parser.depth < nestingLimit) :
    parser.within.need + 2 = parser.need := by
  simp only [need, remaining, levels, within, note]
  omega

end Parser

namespace Call

open Step

/-- The measure of a call. -/
def measure (call : Call) : Nat :=
  match call.task with
  | .expression _ => call.parser.need + 1
  | .operations _ _ | .operation _ _ _ | .operand _ | .block => call.parser.need + 2
  | .statementBy _ => call.parser.need + 3
  | .statement => call.parser.need + 4
  | .blockStatements _ =>
      if call.parser.current.kind = .closeBrace ∨ call.parser.current.kind = .eof then 1
      else call.parser.need + 5
  | .statements _ =>
      if call.parser.current.kind = .eof then 1 else call.parser.need + 5

/-- Where a step that goes onward is done, no more is needed than where it was begun. -/
theorem need_le_of_done
    {α : Type} {step : Step α} {parser ended : Parser} {value : α}
    (onward : step.Onward) (h : step parser = .done value ended) :
    ended.need ≤ parser.need := by
  have extended := onward parser
  rw [h] at extended
  exact extended.need_le

/-- Behind the condition of a conditional and two more tokens less is needed. -/
theorem need_le_of_test
    {parser tested : Parser} {value : Expr} {fuel : Nat}
    (test : Grammar.expression fuel .lowest parser.advance.advance = .done value tested)
    (closed : tested.next.kind = .closeParen) :
    tested.advance.advance.need + 4 ≤ parser.need := by
  have more : tested.next.kind ≠ .eof := by rw [closed]; decide
  calc tested.advance.advance.need + 4 ≤ tested.advance.need + 4 :=
        Nat.add_le_add_right tested.advance.need_advance_le 4
    _ ≤ tested.need := Parser.need_advance_of_next more
    _ ≤ parser.advance.advance.need :=
        need_le_of_done ((Grammar.onward_of_fuel fuel).expression _) test
    _ ≤ parser.advance.need := parser.advance.need_advance_le
    _ ≤ parser.need := parser.need_advance_le

/-- A loop over the statements of a block goes on behind a token with less to do. -/
theorem measure_blockStatements_advance
    {parser ended : Parser} (found : List Stmt) (h : ended.need ≤ parser.need) :
    measure ⟨.blockStatements found, ended.advance⟩ ≤ parser.need + 1 := by
  simp only [measure]
  split
  · omega
  · rename_i more
    rw [not_or] at more
    have := Parser.need_advance_of_next more.2
    omega

theorem measure_statements_advance
    {parser ended : Parser} (found : List Stmt) (h : ended.need ≤ parser.need) :
    measure ⟨.statements found, ended.advance⟩ ≤ parser.need + 1 := by
  simp only [measure]
  split
  · omega
  · rename_i more
    have := Parser.need_advance_of_next more
    omega

/-- Every call that is made has a smaller measure. -/
theorem makes_measure_lt {caller callee : Call} (h : caller.Makes callee) :
    callee.measure < caller.measure := by
  cases h with
  | operand room known =>
      have := Parser.need_within room
      simp only [measure]
      omega
  | firstOperations room known begun =>
      have := Parser.need_within room
      have := need_le_of_done ((Grammar.onward_of_fuel _).operand _) begun
      simp only [measure]
      omega
  | @operation parser power left handler binds known =>
      have more := Kind.ne_eof_of_lt_power binds
      have := Parser.need_advance_of_next more
      simp only [measure]
      omega
  | @nextOperations parser ended power left whole handler fuel binds known applied =>
      have more := Kind.ne_eof_of_lt_power binds
      have := Parser.need_advance_of_next more
      have := need_le_of_done ((Grammar.onward_of_fuel _).operation _ _ _) applied
      simp only [measure]
      omega
  | @right parser | @rightLowest parser | @negated parser | @grouped parser =>
      have := parser.need_advance_le
      simp only [measure]
      omega
  | @condition parser opened =>
      have := parser.need_advance_le
      have := parser.advance.need_advance_le
      simp only [measure]
      omega
  | consequence opened test closed braced =>
      have := need_le_of_test test closed
      simp only [measure]
      omega
  | @alternative parser tested followed value first fuel opened test closed braced taken =>
      have := need_le_of_test test closed
      have := need_le_of_done (Grammar.onward_of_fuel _).block taken
      have := followed.need_advance_le
      have := followed.advance.need_advance_le
      simp only [measure]
      omega
  | @inside parser =>
      have := measure_blockStatements_advance [] (Nat.le_refl parser.need)
      simp only [measure] at this ⊢
      omega
  | blockStatement more =>
      simp only [measure, more, if_false]
      omega
  | @blockRound parser ended found read fuel more round _ =>
      have onward := onward_recovering (Grammar.onward_of_fuel fuel).statement
      have := measure_blockStatements_advance (read.toList ++ found) (need_le_of_done onward round)
      simp only [measure, more, if_false] at this ⊢
      omega
  | blockStop more round closed =>
      simp only [measure, closed, more, true_or, if_true, if_false]
      omega
  | @statementBy parser =>
      have : (parser.note (.statementBegun parser.current)).need = parser.need := rfl
      simp only [measure]
      omega
  | @bound parser =>
      have := parser.need_advance_le
      have := parser.advance.need_advance_le
      have := parser.advance.advance.need_advance_le
      simp only [measure]
      omega
  | @returned parser =>
      have := parser.need_advance_le
      simp only [measure]
      omega
  | standing | whole =>
      simp only [measure]
      omega
  | statement more =>
      simp only [measure, more, if_false]
      omega
  | @round parser ended found read fuel more round =>
      have onward := onward_recovering (Grammar.onward_of_fuel fuel).statement
      have := measure_statements_advance (read.toList ++ found) (need_le_of_done onward round)
      simp only [measure, more, if_false] at this ⊢
      omega

/-- The measure of a call is bounded by what its parser needs. -/
theorem measure_le_need (call : Call) :
    call.measure ≤ call.parser.need + 5 := by
  unfold measure
  split <;> try split
  all_goals omega

/-- A call ends with as many units of fuel as its measure has. -/
theorem run_ne_exhausted {fuel : Nat} {call : Call} (enough : call.measure ≤ fuel) :
    call.run fuel ≠ .exhausted := by
  induction fuel generalizing call with
  | zero =>
      have positive : 0 < call.measure := by
        unfold measure
        split <;> try split
        all_goals omega
      omega
  | succ fuel ih =>
      intro exhausted
      obtain ⟨callee, made, exhausted⟩ := exists_makes_of_exhausted exhausted
      have less := makes_measure_lt made
      exact ih (by omega) exhausted

end Call

namespace Grammar

open Step

/-- The loop over the statements of a program does not fail, since each statement that does is
recorded. -/
theorem statements_never_fails (fuel : Nat) (found : List Stmt) (parser : Parser) :
    (statements fuel found parser).Meets (fun _ _ => True) (fun _ _ => False) := by
  induction fuel generalizing found parser with
  | zero =>
      trivial
  | succ fuel ih =>
      simp only [statements, current_bind]
      split
      · trivial
      · have recorded : (recovering (statement fuel) parser).Meets
            (fun _ _ => True) (fun _ _ => False) := by
          refine meets_recovering ?_
          cases statement fuel parser <;> trivial
        exact meets_bind recorded (fun _ _ _ => ih _ _) (fun _ _ never => never)

/-- With fuel enough the statements of a program are read, whatever they are. -/
theorem statements_succeeds
    {fuel : Nat} {found : List Stmt} {parser : Parser} (enough : parser.need + 5 ≤ fuel) :
    ∃ all ended, statements fuel found parser = .done all ended := by
  let call : Call := ⟨.statements found, parser⟩
  have ends : statements fuel found parser ≠ .exhausted :=
    Call.run_ne_exhausted (Nat.le_trans call.measure_le_need enough)
  have noFailure := statements_never_fails fuel found parser
  cases outcome : statements fuel found parser with
  | done all ended =>
      exact ⟨all, ended, rfl⟩
  | failed diagnostic ended =>
      rw [outcome] at noFailure
      exact noFailure.elim
  | exhausted =>
      exact absurd outcome ends

end Grammar
end LetLang
