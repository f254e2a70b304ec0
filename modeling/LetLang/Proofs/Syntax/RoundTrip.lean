import LetLang.CommandLine.Session
import LetLang.Proofs.Parser.Acceptance
import LetLang.Proofs.Syntax.Printable

/-!
# Reading what was printed

**Input.** The statements of a source text, which may have diagnostics.

**Results.** Printed one a line, they are read again as statements of the same structure, and
printed alone each of them is read as a statement of the same text, as long as the nesting of what
is printed does not exceed the limit.  The limit is on the printed text.  Its parentheses count,
so a statement that was read may be one that cannot be read again.
-/

namespace LetLang

open Text

section Reading

variable {all : List Stmt} {text : String}

/-- The tokens of a text are those of the statements that it is scanned as. -/
theorem Stmt.AllReadAs.scan_eq
    {again : List Concrete.Stmt} (h : Stmt.AllReadAs all 0 text.toList [] again) :
    Token.scan 0 text.toList = Concrete.Program.tokens ⟨again⟩ := by
  have scans := h.scans
  rw [Token.Scans, List.append_nil, Token.scan_nil, List.append_nil] at scans
  exact scans

/-- What is scanned as the tokens of some statements is read as these, or is too deep. -/
theorem Stmt.AllReadAs.parse_cases
    {again : List Concrete.Stmt}
    (h : Stmt.AllReadAs all 0 text.toList [] again) :
    ((∀ s ∈ all, s.renderedNesting ≤ Parser.nestingLimit) ∧
        (parse text).program.statements.map Stmt.bare = all.map Stmt.bare ∧
          (parse text).diagnostics = []) ∨
      ((¬ ∀ s ∈ all, s.renderedNesting ≤ Parser.nestingLimit) ∧
        ∃ diagnostic ∈ (parse text).diagnostics,
          diagnostic.cause = .nestingTooDeep Parser.nestingLimit) := by
  have nesting : Concrete.Program.nesting ⟨again⟩ = Stmt.renderedNestingOf all := h.nesting
  rcases @Concrete.Program.parse_cases ⟨again⟩ text h.wellFormed h.scan_eq with
    ⟨few, read, none⟩ | ⟨many, overrun⟩
  · rw [nesting, Stmt.renderedNestingOf_le_iff] at few
    refine .inl ⟨few, ?_, none⟩
    rw [read]
    exact h.bare
  · rw [nesting, Stmt.renderedNestingOf_le_iff] at many
    exact .inr ⟨many, overrun⟩

/-- The statements of any source text can be printed. -/
theorem Stmt.printable_of_parse (source : String) :
    ∀ s ∈ (parse source).program.statements, s.Printable := by
  obtain ⟨program, same, tokens, _⟩ := Concrete.Program.exists_source source
  rw [same]
  exact Concrete.Stmt.allPrintable program.statements
    (fun token mem => Token.spelled_of_mem_scan (tokens token mem))

theorem CommandLine.toList_lines_render (all : List Stmt) :
    (CommandLine.lines (all.map Stmt.render)).toList = Stmt.textOf [] ['\n'] all := by
  induction all with
  | nil =>
      rfl
  | cons first rest ih =>
      rw [Stmt.textOf, ← ih]
      simp [CommandLine.lines]

/-- Some statements are read again from their lines. -/
theorem Stmt.exists_allReadAs_lines (h : ∀ s ∈ all, s.Printable) :
    ∃ again, Stmt.AllReadAs all 0
      (CommandLine.lines (all.map Stmt.render)).toList [] again := by
  have newline : ∀ c ∈ ([] : List Char) ++ ['\n'], isBlank c ∧ Separates c :=
    List.forall_mem_singleton.mpr ⟨by decide, by decide⟩
  rw [CommandLine.toList_lines_render]
  exact Stmt.exists_allReadAs h newline (List.cons_ne_nil _ _) 0 (by simp)

/-- A statement is read again from its text. -/
theorem Stmt.Printable.exists_allReadAs {s : Stmt} (h : s.Printable) :
    ∃ again, Stmt.AllReadAs [s] 0 s.render.toList [] again := by
  obtain ⟨again, reads⟩ := h 0 [] (by simp)
  refine ⟨[again], ⟨reads.wellFormed, trivial, trivial⟩, ?_, ?_, ?_, ?_⟩
  · rintro next ⟨⟩
    exact reads.notMinus
  · simp [Concrete.Stmt.eraseAll, reads.bare]
  · simp [Concrete.Stmt.nestingOf, Stmt.renderedNestingOf, reads.nesting]
  · simpa [Concrete.Stmt.tokensOf] using reads.scans

end Reading

section RoundTrip

/-- The statements of a source text, printed one a line, whatever its diagnostics are. -/
def printed (source : String) : String :=
  CommandLine.lines ((parse source).program.statements.map Stmt.render)

/-- This is what a run of the program prints that finds no diagnostic. -/
theorem output_eq_printed
    {source : String} (clean : (parse source).diagnostics = [])
    (options : CommandLine.Options) (elapsed : String) :
    (options.transcript source (parse source) elapsed).output = printed source := by
  simp [CommandLine.Options.transcript, clean, printed]

/-- What is printed for a text is read without a diagnostic exactly if none of its statements is
nested too deeply when printed.  Then the statements that are read have the structure of those
that were printed, and the same is printed for them; otherwise it is recorded that one is too
deep. -/
theorem parse_printed (source : String) :
    ((parse (printed source)).diagnostics = [] ↔
      ∀ s ∈ (parse source).program.statements, s.renderedNesting ≤ 100) ∧
    ((∀ s ∈ (parse source).program.statements, s.renderedNesting ≤ 100) →
      (parse (printed source)).program.statements.map Stmt.bare =
          (parse source).program.statements.map Stmt.bare ∧
        printed (printed source) = printed source) ∧
    ((∃ s ∈ (parse source).program.statements, 100 < s.renderedNesting) →
      ∃ diagnostic ∈ (parse (printed source)).diagnostics,
        diagnostic.cause = .nestingTooDeep 100) := by
  obtain ⟨again, readAs⟩ := Stmt.exists_allReadAs_lines (Stmt.printable_of_parse source)
  have deep : (∃ s ∈ (parse source).program.statements, 100 < s.renderedNesting) ↔
      ¬ ∀ s ∈ (parse source).program.statements, s.renderedNesting ≤ 100 := by
    simp
  obtain ⟨clean, read, overrun⟩ :=
    Parsed.of_cases (@Stmt.AllReadAs.parse_cases _ (printed source) again readAs)
  rw [deep]
  refine ⟨clean, fun few => ⟨read few, ?_⟩, overrun⟩
  rw [printed, Stmt.map_render_eq_of_bare (read few)]
  rfl

/-- A statement that was read can be read again from its own text, as one statement of the same
text, exactly if it is not nested too deeply when printed. -/
theorem parse_render_iff
    (source : String) (s : Stmt) (mem : s ∈ (parse source).program.statements) :
    ((parse s.render).diagnostics = [] ∧
      ∃ again, (parse s.render).program.statements = [again] ∧ again.render = s.render) ↔
    s.renderedNesting ≤ 100 := by
  obtain ⟨again, readAs⟩ := (Stmt.printable_of_parse source s mem).exists_allReadAs
  obtain ⟨clean, read, _⟩ := Parsed.of_cases readAs.parse_cases
  rw [List.forall_mem_singleton] at clean read
  constructor
  · rintro ⟨none, _⟩
    exact clean.mp none
  · intro few
    obtain ⟨first, single, bare⟩ := List.map_eq_singleton_iff.mp (read few)
    exact ⟨clean.mpr few, first, single, Stmt.render_eq_of_bare bare⟩

/-- Both kinds of operations and a conditional without a semicolon are read again. -/
theorem parse_render_iff_conditional :
    ∃ s ∈ (parse "if (a < -b) \x7b x; !y * 2.5 \x7d").program.statements,
      (parse s.render).diagnostics = [] ∧
        ∃ again, (parse s.render).program.statements = [again] ∧ again.render = s.render := by
  have nonempty : (parse "if (a < -b) \x7b x; !y * 2.5 \x7d").program.statements ≠ [] := by
    decide +kernel
  have few : ∀ s ∈ (parse "if (a < -b) \x7b x; !y * 2.5 \x7d").program.statements,
      s.renderedNesting ≤ 100 := by
    decide +kernel
  obtain ⟨s, mem⟩ := List.exists_mem_of_ne_nil _ nonempty
  exact ⟨s, mem, (parse_render_iff _ s mem).mpr (few s mem)⟩

/-- Fifty minus signs are not too many for a text, but they are for what is printed for it. -/
theorem exists_parse_render_ne_nil :
    (parse (String.ofList (List.replicate 50 '-' ++ ['1']))).diagnostics = [] ∧
      ∃ s ∈ (parse (String.ofList (List.replicate 50 '-' ++ ['1']))).program.statements,
        (parse s.render).diagnostics ≠ [] := by
  decide +kernel

end RoundTrip

end LetLang
