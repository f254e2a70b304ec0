import LetLang.Proofs.Parser.Ahead
import LetLang.Proofs.Parser.Source

/-!
# What is recorded first

The first diagnostic that is recorded since a parser was begun says at which token something is
wrong.  `Parser.Mends` states a condition on the tokens before that one, and `Outcome.Mends` does so
for the end of a step.  Nothing is said of later diagnostics, nor of one whose cause no tokens could
mend.

As long as nothing is recorded it is known which tokens have been passed: `Parser.Reaches`.  So the
condition is carried from the parts of a step to the whole.  A part that records something settles
it, with the tokens passed before the part in front of its own; behind a part that records nothing
the next one begins.
-/

namespace LetLang

/-- A cause that may be mended by other tokens in place of those that follow.  The limit on nesting
is met before the tokens that are too many, and the word of a conditional is passed before its
parenthesis is looked for, on a level on which there may be no room for a condition. -/
def Cause.Mendable : Cause → Prop
  | .nestingTooDeep _ => False
  | .unexpectedToken expected _ => expected ≠ .openParen
  | _ => True

namespace Parser

/-- Some tokens have been passed since a parser, and nothing has been recorded. -/
structure Reaches (begun : Parser) (passed : List Token) (late : Parser) : Prop where
  tokens : begun.stream.tokens = passed ++ late.stream.tokens
  extension : begun.Extends late
  clean : late.diagnostics = begun.diagnostics

section Reaches

variable {begun middle late ended : Parser} {passed passed' : List Token} {token : Token}

theorem Reaches.refl (parser : Parser) :
    parser.Reaches [] parser :=
  ⟨rfl, .refl parser, rfl⟩

theorem Reaches.trans
    (early : begun.Reaches passed middle) (late : middle.Reaches passed' ended) :
    begun.Reaches (passed ++ passed') ended :=
  ⟨by rw [early.tokens, late.tokens, List.append_assoc], early.extension.trans late.extension,
    late.clean.trans early.clean⟩

theorem reaches_note (event : Event) (parser : Parser) :
    parser.Reaches [] (parser.note event) :=
  ⟨rfl, .note event parser, rfl⟩

/-- One more token is passed. -/
theorem Reaches.advance
    (h : begun.Reaches passed late) (here : late.stream.tokens = token :: late.behind) :
    begun.Reaches (passed ++ [token]) late.advance :=
  h.trans ⟨here, .advance late, rfl⟩

/-- A step that has recorded nothing ends at the last of the tokens that it has passed. -/
theorem Extends.reaches
    (extension : begun.Extends ended) (clean : ended.diagnostics = begun.diagnostics)
    (tokens : begun.stream.tokens = passed ++ ended.behind) :
    begun.Reaches passed ended.advance :=
  ⟨tokens, extension.trans (.advance ended), clean⟩

theorem Reaches.ahead (h : begun.Reaches passed late) :
    begun.ahead = passed ++ late.ahead := by
  rw [Parser.ahead, Parser.ahead, h.tokens, h.extension.stop, List.append_assoc]

theorem Reaches.levels (h : begun.Reaches passed late) :
    late.levels = begun.levels := by
  rw [Parser.levels, Parser.levels, h.extension.depth]

theorem Reaches.ready (h : begun.Reaches passed late) (ready : begun.Ready) :
    late.Ready :=
  ready.extends h.extension

theorem Fits.le_levels {parser : Parser} {levels : Nat} (h : parser.Fits levels) :
    levels ≤ parser.levels := by
  simp only [Fits, Parser.levels] at *
  omega

end Reaches

/-- What has been recorded first since a parser, if its cause can be mended, is at a token ahead of
the parser, and a condition holds of the tokens before this one. -/
def Mends (begun ended : Parser) (viable : List Token → Prop) : Prop :=
  ∀ diagnostic later,
    ended.diagnostics.toList = begun.diagnostics.toList ++ diagnostic :: later →
    diagnostic.cause.Mendable →
    ∃ front token rest, begun.ahead = front ++ token :: rest ∧
      diagnostic.position = token.start ∧ viable front

section Mends

variable {begun middle late ended : Parser} {viable viable' : List Token → Prop}
variable {passed : List Token} {diagnostic : Diagnostic}

/-- Where nothing was recorded there is nothing to mend. -/
theorem mends_of_clean (clean : ended.diagnostics = begun.diagnostics) :
    begun.Mends ended viable := by
  intro diagnostic later recorded
  rw [clean] at recorded
  simp at recorded

/-- What was recorded first stays so. -/
theorem Mends.extends
    (h : begun.Mends middle viable) (before : begun.Extends middle)
    (recorded : middle.diagnostics ≠ begun.diagnostics) (onward : middle.Extends ended) :
    begun.Mends ended viable := by
  intro diagnostic later whole mendable
  obtain ⟨added, here⟩ := before.diagnostics
  obtain ⟨more, there⟩ := onward.diagnostics
  cases added with
  | nil =>
      rw [List.append_nil] at here
      exact absurd (Array.toList_inj.mp here.symm) recorded
  | cons first others =>
      rw [whole, ← here, List.append_assoc, List.cons_append] at there
      obtain ⟨rfl, _⟩ := List.cons.inj (List.append_cancel_left there)
      exact h first others here.symm mendable

/-- The tokens passed before are put in front of those that were found viable. -/
theorem Reaches.mends
    (reaches : begun.Reaches passed late) (h : late.Mends ended viable')
    (inside : ∀ front, front <+: late.ahead → viable' front → viable (passed ++ front)) :
    begun.Mends ended viable := by
  intro diagnostic later recorded mendable
  rw [← reaches.clean] at recorded
  obtain ⟨front, token, rest, whole, position, holds⟩ := h diagnostic later recorded mendable
  have isPrefix : front <+: late.ahead := ⟨token :: rest, whole.symm⟩
  refine ⟨passed ++ front, token, rest, ?_, position, inside front isPrefix holds⟩
  rw [reaches.ahead, whole, List.append_assoc]

/-- A diagnostic at the token that has been reached is mended behind the tokens passed. -/
theorem Reaches.mends_record
    (reaches : begun.Reaches passed late) (clean : ended.diagnostics = begun.diagnostics)
    (position : diagnostic.position = late.current.start)
    (missing : diagnostic.cause.Mendable → viable passed) :
    begun.Mends (ended.record diagnostic) viable := by
  intro first later recorded mendable
  have whole : begun.diagnostics.toList ++ [diagnostic] =
      begun.diagnostics.toList ++ first :: later := by
    rw [← recorded, ← clean]
    simp [record]
  obtain ⟨rfl, _⟩ := List.cons.inj (List.append_cancel_left whole)
  refine ⟨passed, late.current, late.ahead.tail, ?_, position, missing mendable⟩
  rw [reaches.ahead, ← ahead_eq_cons]

end Mends

end Parser

/-- What a step has recorded first, or failed with, can be mended behind tokens for which a
condition holds. -/
def Outcome.Mends {α : Type} (outcome : Outcome α) (begun : Parser) (viable : List Token → Prop) :
    Prop :=
  outcome.Meets
    (fun _ ended => begun.Mends ended viable)
    (fun diagnostic ended => begun.Mends (ended.record diagnostic) viable)

namespace Step

open LetLang.Parser

variable {α β : Type} {begun parser ended : Parser} {viable viable' : List Token → Prop}
variable {passed : List Token}

theorem mends_pure {value : α} (clean : parser.diagnostics = begun.diagnostics) :
    ((pure value : Step α) parser).Mends begun viable :=
  mends_of_clean clean

/-- What begins behind some tokens has them in front of its own. -/
theorem mends_of_reaches {outcome : Outcome α}
    (reaches : begun.Reaches passed parser) (h : outcome.Mends parser viable')
    (inside : ∀ front, front <+: parser.ahead → viable' front → viable (passed ++ front)) :
    outcome.Mends begun viable :=
  Outcome.Meets.mono h
    (fun _ _ mends => reaches.mends mends inside) (fun _ _ mends => reaches.mends mends inside)

theorem mends_fail {cause : Cause}
    (reaches : begun.Reaches passed parser) (missing : viable passed) :
    ((fail cause parser.current.start : Step α) parser).Mends begun viable :=
  reaches.mends_record reaches.clean rfl (fun _ => missing)

/-- Either the first of two steps has recorded something, or the second one begins where it is
known what has been passed. -/
theorem mends_bind
    {step : Step α} {next : α → Step β} {done : α → Parser → Prop}
    (reaches : begun.Reaches passed parser) (first : (step parser).Mends parser viable')
    (inside : ∀ front, front <+: parser.ahead → viable' front → viable (passed ++ front))
    (sound : step.Yields parser done) (onward : ∀ value, (next value).Onward)
    (rest : ∀ value ended, parser.Extends ended → ended.diagnostics = parser.diagnostics →
      done value ended → (next value ended).Mends begun viable) :
    ((step >>= next) parser).Mends begun viable := by
  refine meets_bind (sound.and (mends_of_reaches reaches first inside)) ?_ (fun _ _ both => both.2)
  rintro value ended ⟨⟨extension, holds⟩, mends⟩
  by_cases clean : ended.diagnostics = parser.diagnostics
  · exact rest value ended extension clean holds
  · have recorded : ended.diagnostics ≠ begun.diagnostics := by
      rwa [← reaches.clean]
    have since := reaches.extension.trans extension
    exact (onward value ended).mono
      (fun _ _ extended => mends.extends since recorded extended)
      (fun diagnostic last extended => mends.extends since recorded
        (extended.trans (Extends.record diagnostic last)))

/-- An expected token that is missing can be put there. -/
theorem mends_expect_bind
    {kind : Kind} {next : Token → Step β}
    (reaches : begun.Reaches passed parser) (notEnd : kind ≠ .eof) (missing : viable passed)
    (rest : ∀ token : TokenOf [kind], begun.Reaches (passed ++ [token.token]) parser.advance →
      (next token.token parser.advance).Mends begun viable) :
    ((expect kind >>= next) parser).Mends begun viable := by
  by_cases same : parser.current.kind = kind
  · rw [expect_bind_of_kind same]
    exact rest ⟨parser.current, List.mem_singleton.mpr same⟩
      (reaches.advance (tokens_of_current (same ▸ notEnd)))
  · rw [expect_bind_of_ne same]
    exact reaches.mends_record reaches.clean rfl (fun _ => missing)

/-- An expected next token that is missing can be put there, if it is no opening parenthesis. -/
theorem mends_expectNext_bind
    {kind : Kind} {next : Token → Step β}
    (reaches : begun.Reaches passed ended.advance) (notEnd : kind ≠ .eof)
    (missing : kind ≠ .openParen → viable passed)
    (rest : ∀ token : TokenOf [kind], ended.advance.current = token.token →
      begun.Reaches (passed ++ [token.token]) ended.advance.advance →
      (next token.token ended.advance).Mends begun viable) :
    ((expectNext kind >>= next) ended).Mends begun viable := by
  by_cases same : ended.next.kind = kind
  · have here : ended.advance.stream.tokens = ended.next :: ended.advance.behind :=
      behind_of_next (same ▸ notEnd)
    rw [expectNext_bind_of_kind same]
    exact rest ⟨ended.next, List.mem_singleton.mpr same⟩ rfl (reaches.advance here)
  · rw [expectNext_bind_of_ne same]
    exact reaches.mends_record reaches.clean rfl missing

/-- A nested step records what it does one level further in.  The limit on nesting cannot be
mended. -/
theorem mends_nested {step : Step α}
    (inside : parser.depth < nestingLimit →
      (step { parser with depth := parser.depth + 1 }).Mends
        { parser with depth := parser.depth + 1 } viable) :
    (nested step parser).Mends parser viable :=
  meets_nested inside fun _ =>
    (Reaches.refl parser).mends_record rfl rfl False.elim

/-- To record what a step fails with makes no difference to what can be mended. -/
theorem mends_recovering {step : Step α} (h : (step parser).Mends begun viable) :
    (recovering step parser).Mends begun viable :=
  meets_recovering h

/-- Where a step has been recovered from and nothing is recorded, the step was done. -/
theorem recovering_yields
    {step : Step α} {done : α → Parser → Prop}
    (onward : step.Onward) (sound : step.Yields parser done) :
    (recovering step).Yields parser fun result ended =>
      ended.diagnostics = parser.diagnostics → ∃ value, result = some value ∧ done value ended := by
  have both := (onward parser).and sound
  refine (onward_recovering onward).yields (meets_recovering (both.mono ?_ ?_))
  · rintro value ended ⟨_, _, holds⟩ _
    exact ⟨value, rfl, holds⟩
  · rintro diagnostic ended ⟨extension, _⟩ clean
    have fewer := extension.diagnostics.length_le
    have one : (ended.record diagnostic).diagnostics.toList =
        ended.diagnostics.toList ++ [diagnostic] := by
      simp [record]
    have more := congrArg List.length one
    rw [clean, List.length_append, List.length_singleton] at more
    omega

end Step
end LetLang
