import LetLang.Proofs.Parser.Keeps

/-!
# The limit on nesting

A text that is nested too deeply is not read as a whole, but it leaves a trace.  The statement in
which the limit is met is left out, the diagnostic that says so is recorded, and it stays where it
is, since steps go onward.

`Outcome.Within` puts both halves into one condition on the end of a step.  Where the levels that
a text needs are left, the step is done and a condition holds.  Where they are not, the step ends
in the diagnostic, or has recorded it.
-/

namespace LetLang

namespace Parser

/-- A number of expressions may still be begun one inside the other. -/
def Fits (parser : Parser) (levels : Nat) : Prop :=
  parser.depth + levels ≤ nestingLimit

/-- An expression was nested too deeply, and this has been recorded. -/
def Overrun (parser : Parser) : Prop :=
  ∃ diagnostic ∈ parser.diagnostics.toList,
    diagnostic.cause = .nestingTooDeep nestingLimit

section Overrun

variable {first second : Parser}

theorem Overrun.extends
    (h : first.Overrun) (extension : first.Extends second) :
    second.Overrun := by
  obtain ⟨diagnostic, mem, cause⟩ := h
  exact ⟨diagnostic, extension.diagnostics.subset mem, cause⟩

theorem overrun_record
    {diagnostic : Diagnostic} {parser : Parser}
    (h : diagnostic.cause = .nestingTooDeep nestingLimit ∨ parser.Overrun) :
    (parser.record diagnostic).Overrun := by
  rcases h with cause | overrun
  · exact ⟨diagnostic, by simp [record], cause⟩
  · exact overrun.extends (Extends.record diagnostic parser)

end Overrun

theorem Keeps.fits
    {begun ended : Parser} {levels : Nat}
    (h : begun.Keeps ended) :
    ended.Fits levels ↔ begun.Fits levels := by
  simp [Fits, h.depth]

end Parser

namespace Outcome

variable {α : Type}

/-- Where a number of levels is left the step is done and a condition holds.  Where they are not,
it ends in the diagnostic that says so, or this has been recorded. -/
def Within
    (outcome : Outcome α) (begun : Parser) (levels : Nat)
    (done : α → Parser → Prop) : Prop :=
  outcome.Meets
    (fun value ended =>
      (begun.Fits levels ∧ done value ended) ∨ (¬ begun.Fits levels ∧ ended.Overrun))
    (fun diagnostic ended =>
      ¬ begun.Fits levels ∧
        (diagnostic.cause = .nestingTooDeep Parser.nestingLimit ∨ ended.Overrun))

theorem Within.congr
    {outcome : Outcome α} {begun late : Parser} {levels levels' : Nat}
    {done done' : α → Parser → Prop}
    (h : outcome.Within late levels done)
    (same : late.Fits levels ↔ begun.Fits levels')
    (onDone : ∀ value ended, done value ended → done' value ended) :
    outcome.Within begun levels' done' := by
  refine Meets.mono h ?_ ?_
  · rintro value ended (⟨fits, holds⟩ | ⟨full, overrun⟩)
    · exact .inl ⟨same.mp fits, onDone value ended holds⟩
    · exact .inr ⟨mt same.mpr full, overrun⟩
  · rintro diagnostic ended ⟨full, overrun⟩
    exact ⟨mt same.mpr full, overrun⟩

/-- A step ends in an expected value at the last token before `rest`, with nothing recorded, if
the levels that it needs are left. -/
def Reads
    (outcome : Outcome α) (begun : Parser) (expected : α) (rest : List Token)
    (levels : Nat) : Prop :=
  outcome.Within begun levels
    (fun value ended => value = expected ∧ ended.behind = rest ∧ begun.Keeps ended)

/-- A step may have begun earlier, where nothing but the place in the tokens was changed since. -/
theorem Reads.ofKeeps
    {outcome : Outcome α} {begun late : Parser} {expected : α} {rest : List Token} {levels : Nat}
    (h : outcome.Reads late expected rest levels)
    (keeps : begun.Keeps late) :
    outcome.Reads begun expected rest levels :=
  h.congr keeps.fits
    (fun _ _ read => ⟨read.1, read.2.1, keeps.trans read.2.2⟩)

end Outcome

namespace Step

variable {α β : Type}
variable {begun parser : Parser} {levels levels' : Nat}

/-- Behind a step for which the levels were not enough, anything that goes onward may follow. -/
theorem within_bind
    {step : Step α} {next : α → Step β}
    {done : α → Parser → Prop} {done' : β → Parser → Prop}
    (first : (step parser).Within begun levels done)
    (le : levels ≤ levels')
    (onward : ∀ value, (next value).Onward)
    (rest : ∀ value ended, begun.Fits levels → done value ended →
      (next value ended).Within begun levels' done') :
    ((step >>= next) parser).Within begun levels' done' := by
  have fewer : begun.Fits levels' → begun.Fits levels := by
    unfold Parser.Fits
    omega
  refine meets_bind first ?_ ?_
  · rintro value ended (⟨fits, holds⟩ | ⟨full, overrun⟩)
    · exact rest value ended fits holds
    · exact (onward value ended).mono
        (fun _ _ extension => .inr ⟨mt fewer full, overrun.extends extension⟩)
        (fun _ _ extension => ⟨mt fewer full, .inr (overrun.extends extension)⟩)
  · rintro diagnostic ended ⟨full, overrun⟩
    exact ⟨mt fewer full, overrun⟩

theorem within_bind_of_reads
    {step : Step α} {next : α → Step β}
    {expected : α} {rest : List Token} {done : β → Parser → Prop}
    (first : (step parser).Reads begun expected rest levels)
    (le : levels ≤ levels')
    (onward : ∀ value, (next value).Onward)
    (reading : ∀ ended : Parser, begun.Fits levels → ended.behind = rest → begun.Keeps ended →
      (next expected ended).Within begun levels' done) :
    ((step >>= next) parser).Within begun levels' done := by
  refine within_bind first le onward ?_
  rintro value ended fits ⟨rfl, behind, keeps⟩
  exact reading ended fits behind keeps

theorem reads_pure
    {value : α} {rest : List Token}
    (fits : begun.Fits levels) (behind : parser.behind = rest) (keeps : begun.Keeps parser) :
    ((pure value : Step α) parser).Reads begun value rest levels :=
  .inl ⟨fits, rfl, behind, keeps⟩

/-- A nested step needs one level more. -/
theorem within_nested
    {step : Step α} {done : α → Parser → Prop}
    (inside : parser.depth < Parser.nestingLimit →
      (step { parser with depth := parser.depth + 1 }).Within
        { parser with depth := parser.depth + 1 } levels
        (fun value ended => done value ended.leave)) :
    (nested step parser).Within parser (levels + 1) done := by
  have same : Parser.Fits { parser with depth := parser.depth + 1 } levels ↔
      parser.Fits (levels + 1) := by
    simp only [Parser.Fits]
    omega
  refine meets_nested (fun room => ?_) (fun full => ?_)
  · refine (inside room).mono ?_ ?_
    · rintro value ended (⟨fits, holds⟩ | ⟨tooMany, overrun⟩)
      · exact .inl ⟨same.mp fits, holds⟩
      · exact .inr ⟨mt same.mpr tooMany, overrun⟩
    · rintro diagnostic ended ⟨tooMany, overrun⟩
      exact ⟨mt same.mpr tooMany, overrun⟩
  · refine ⟨?_, .inl rfl⟩
    unfold Parser.Fits
    omega

/-- What a statement fails with for want of levels is recorded. -/
theorem within_recovering
    {step : Step α} {done : Option α → Parser → Prop}
    (h : (step parser).Within begun levels (fun value ended => done (some value) ended)) :
    (recovering step parser).Within begun levels done := by
  refine meets_recovering (h.mono (fun _ _ holds => holds) ?_)
  rintro diagnostic ended ⟨full, overrun⟩
  exact .inr ⟨full, Parser.overrun_record overrun⟩

end Step
end LetLang
