import LetLang.Parser.Basic

/-!
# The ends of steps

A step that has fuel enough ends in a value or in a diagnostic.  `Outcome.Meets` states one
condition for either end, on what the step ends in and on the parser that it leaves behind, and
asks for nothing where the fuel did not suffice.  Conditions on steps are put together along
`>>=` in the way the steps are, so the theorems about the grammar need not speak of an amount of
fuel.
-/

namespace LetLang

namespace Outcome

variable {α : Type}

/-- Where the step is done one condition holds, and where it has failed another. -/
def Meets
    (done : α → Parser → Prop) (failed : Diagnostic → Parser → Prop) :
    Outcome α → Prop
  | .done value ended => done value ended
  | .failed diagnostic ended => failed diagnostic ended
  | .exhausted => True

theorem Meets.mono
    {outcome : Outcome α}
    {done done' : α → Parser → Prop}
    {failed failed' : Diagnostic → Parser → Prop}
    (h : outcome.Meets done failed)
    (onDone : ∀ value ended, done value ended → done' value ended)
    (onFailed : ∀ diagnostic ended,
      failed diagnostic ended → failed' diagnostic ended) :
    outcome.Meets done' failed' := by
  cases outcome with
  | done value ended =>
      exact onDone value ended h
  | failed diagnostic ended =>
      exact onFailed diagnostic ended h
  | exhausted =>
      exact h

/-- What is known of a value may be weakened, and what is known of a diagnostic given up. -/
theorem Meets.imp
    {outcome : Outcome α}
    {done done' : α → Parser → Prop}
    {failed : Diagnostic → Parser → Prop}
    (h : outcome.Meets done failed)
    (onDone : ∀ value ended, done value ended → done' value ended) :
    outcome.Meets done' (fun _ _ => True) :=
  h.mono onDone (fun _ _ _ => trivial)

/-- Both of two conditions hold where each of them does. -/
theorem Meets.and
    {outcome : Outcome α}
    {done done' : α → Parser → Prop}
    {failed failed' : Diagnostic → Parser → Prop}
    (h : outcome.Meets done failed)
    (h' : outcome.Meets done' failed') :
    outcome.Meets
      (fun value ended => done value ended ∧ done' value ended)
      (fun diagnostic ended => failed diagnostic ended ∧ failed' diagnostic ended) := by
  cases outcome with
  | done value ended =>
      exact ⟨h, h'⟩
  | failed diagnostic ended =>
      exact ⟨h, h'⟩
  | exhausted =>
      trivial

end Outcome

namespace Parser

@[simp] theorem handlers_note (event : Event) (parser : Parser) :
    (parser.note event).handlers = parser.handlers :=
  rfl

end Parser

namespace Step

section Bind

variable {α β : Type}

@[simp] theorem pure_apply (value : α) (parser : Parser) :
    (pure value : Step α) parser = .done value parser := by
  rfl

@[simp] theorem read_bind (view : Parser → α) (next : α → Step β) (parser : Parser) :
    (read view >>= next) parser = next (view parser) parser := by
  rfl

@[simp] theorem modify_bind (change : Parser → Parser) (next : Unit → Step β)
    (parser : Parser) :
    (modify change >>= next) parser = next () (change parser) := by
  rfl

@[simp] theorem current_bind (next : Token → Step β) (parser : Parser) :
    (current >>= next) parser = next parser.current parser := by
  rfl

@[simp] theorem take_bind (next : Token → Step β) (parser : Parser) :
    (take >>= next) parser = next parser.current parser.advance := by
  rfl

@[simp] theorem advance_bind (next : Unit → Step β) (parser : Parser) :
    (advance >>= next) parser = next () parser.advance := by
  rfl

end Bind

section Meets

variable {α β : Type}
variable {done : α → Parser → Prop} {done' : β → Parser → Prop}
variable {failed failed' : Diagnostic → Parser → Prop}

/-- What follows a step may rely on what the step is known to end in. -/
theorem meets_bind
    {step : Step α} {next : α → Step β} {parser : Parser}
    (first : (step parser).Meets done failed)
    (rest : ∀ value ended, done value ended →
      (next value ended).Meets done' failed')
    (failing : ∀ diagnostic ended,
      failed diagnostic ended → failed' diagnostic ended) :
    ((step >>= next) parser).Meets done' failed' := by
  show (match step parser with
    | .done value parser => next value parser
    | .failed diagnostic parser => .failed diagnostic parser
    | .exhausted => .exhausted : Outcome β).Meets done' failed'
  cases outcome : step parser with
  | done value ended =>
      rw [outcome] at first
      exact rest value ended first
  | failed diagnostic ended =>
      rw [outcome] at first
      exact failing diagnostic ended first
  | exhausted =>
      trivial

/-- A nested step ends as it does one level further in, with the level given back; where there is
no level left it fails at once. -/
theorem meets_nested
    {step : Step α} {parser : Parser}
    (inside : parser.depth < Parser.nestingLimit →
      (step { parser with depth := parser.depth + 1 }).Meets
        (fun value ended => done value ended.leave)
        (fun diagnostic ended => failed diagnostic ended.leave))
    (outside : Parser.nestingLimit ≤ parser.depth →
      failed
        ⟨.nestingTooDeep Parser.nestingLimit, parser.current.start⟩ parser) :
    (nested step parser).Meets done failed := by
  unfold nested Parser.enter
  by_cases room : parser.depth < Parser.nestingLimit
  · have ends := inside room
    simp only [room, if_true]
    cases outcome : step { parser with depth := parser.depth + 1 } with
    | done value ended =>
        rw [outcome] at ends
        exact ends
    | failed diagnostic ended =>
        rw [outcome] at ends
        exact ends
    | exhausted =>
        trivial
  · simp only [room, if_false]
    exact outside (Nat.le_of_not_lt room)

/-- A step whose diagnostic is recorded is always done. -/
theorem meets_recovering
    {step : Step α} {parser : Parser}
    {done' : Option α → Parser → Prop}
    (h : (step parser).Meets
      (fun value ended => done' (some value) ended)
      (fun diagnostic ended => done' none (ended.record diagnostic))) :
    (recovering step parser).Meets done' failed := by
  unfold recovering
  cases outcome : step parser with
  | done value ended =>
      rw [outcome] at h
      exact h
  | failed diagnostic ended =>
      rw [outcome] at h
      exact h
  | exhausted =>
      trivial

theorem expect_bind_of_kind
    {kind : Kind} {next : Token → Step β} {parser : Parser}
    (same : parser.current.kind = kind) :
    (expect kind >>= next) parser = next parser.current parser.advance := by
  simp [expect, ofResult, Parser.expect, bind, andThen, same]

theorem expect_bind_of_ne
    {kind : Kind} {next : Token → Step β} {parser : Parser}
    (other : parser.current.kind ≠ kind) :
    (expect kind >>= next) parser =
      .failed ⟨.unexpectedToken kind parser.current.kind, parser.current.start⟩
        parser := by
  simp [expect, ofResult, Parser.expect, bind, andThen, other]

theorem expectNext_bind_of_kind
    {kind : Kind} {next : Token → Step β} {parser : Parser}
    (same : parser.next.kind = kind) :
    (expectNext kind >>= next) parser = next parser.next parser.advance := by
  simp [expectNext, ofResult, Parser.expectNext, bind, andThen, same]

theorem expectNext_bind_of_ne
    {kind : Kind} {next : Token → Step β} {parser : Parser}
    (other : parser.next.kind ≠ kind) :
    (expectNext kind >>= next) parser =
      .failed ⟨.unexpectedToken kind parser.next.kind, parser.next.start⟩
        parser := by
  simp [expectNext, ofResult, Parser.expectNext, bind, andThen, other]

end Meets

end Step
end LetLang
