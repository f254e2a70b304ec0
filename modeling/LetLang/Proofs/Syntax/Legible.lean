import LetLang.Proofs.Concrete.Unambiguous
import LetLang.Proofs.Syntax.RoundTrip

/-!
# Texts of one structure

**Input.** Two statements that come from source texts.

**Proof.** The text of either is scanned as the tokens of a well-formed concrete tree of its
structure.  Where the texts are the same, so are the tokens, and then so are the trees.  Nothing is
read, so it does not matter whether the text is nested too deeply for that.

**Result.** The statements have one text exactly if they have one structure.
-/

namespace LetLang

/-- A text is that of one structure. -/
theorem Stmt.Printable.bare_eq_of_render
    {s t : Stmt} (onFirst : s.Printable) (onSecond : t.Printable) (same : s.render = t.render) :
    s.bare = t.bare := by
  obtain ⟨again, reads⟩ := onFirst.exists_allReadAs
  obtain ⟨again', reads'⟩ := onSecond.exists_allReadAs
  rw [← same] at reads'
  have tokens : Concrete.Program.tokens ⟨again⟩ = Concrete.Program.tokens ⟨again'⟩ :=
    reads.scan_eq.symm.trans reads'.scan_eq
  have trees : again = again' :=
    congrArg Concrete.Program.statements
      (Concrete.Program.eq_of_tokens reads.wellFormed reads'.wellFormed tokens)
  have bare : [s].map Stmt.bare = [t].map Stmt.bare := by
    rw [← reads.bare, ← reads'.bare, trees]
  exact List.singleton_inj.mp bare

/-- Statements of source texts are rendered in the same way exactly if they have the same
structure, however deeply they are nested. -/
theorem render_eq_iff
    (a b : String) (s t : Stmt)
    (mem : s ∈ (parse a).program.statements) (mem' : t ∈ (parse b).program.statements) :
    s.render = t.render ↔ s.bare = t.bare :=
  ⟨(Stmt.printable_of_parse a s mem).bare_eq_of_render (Stmt.printable_of_parse b t mem'),
    Stmt.render_eq_of_bare⟩

/-- Fifty minus signs, without blanks and with a blank behind each of them.  The text of the
statement is nested too deeply to be read again. -/
theorem render_eq_iff_fiftySigns :
    ∃ s ∈ (parse (String.ofList (List.replicate 50 '-' ++ ['x']))).program.statements,
      ∃ t ∈ (parse (String.ofList ((List.replicate 50 ['-', ' ']).flatten ++
        ['x']))).program.statements,
        100 < s.renderedNesting ∧ s.render = t.render ∧ s.bare = t.bare := by
  have same : ∃ s ∈ (parse (String.ofList (List.replicate 50 '-' ++ ['x']))).program.statements,
      ∃ t ∈ (parse (String.ofList ((List.replicate 50 ['-', ' ']).flatten ++
        ['x']))).program.statements, 100 < s.renderedNesting ∧ s.render = t.render := by
    decide +kernel
  obtain ⟨s, mem, t, mem', deep, text⟩ := same
  exact ⟨s, mem, t, mem', deep, text, (render_eq_iff _ _ s t mem mem').mp text⟩

end LetLang
