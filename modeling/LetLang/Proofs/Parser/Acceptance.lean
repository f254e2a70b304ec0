import LetLang.Proofs.Concrete.Parts
import LetLang.Proofs.Parser.Completeness
import LetLang.Proofs.Parser.Soundness
import LetLang.Proofs.Token.Spelling
import LetLang.Syntax.Render

/-!
# What is accepted

A text is accepted if parsing it records no diagnostic.

**Input.** A source text, and a concrete program.

**Results.** The texts that are accepted are those of the well-formed programs in which no
expression is nested more than a hundred levels deep.  The syntax tree of such a text is that of
the program.  Of a well-formed program with an expression on a deeper level this is recorded.
-/

namespace LetLang

/-- A text that is either read, with nothing recorded, or recorded as too deep: which of the two
it is can be seen from the diagnostics. -/
theorem Parsed.of_cases {parsed : Parsed} {fits read : Prop} {cause : Cause}
    (cases : (fits ∧ read ∧ parsed.diagnostics = []) ∨
      (¬ fits ∧ ∃ diagnostic ∈ parsed.diagnostics, diagnostic.cause = cause)) :
    (parsed.diagnostics = [] ↔ fits) ∧ (fits → read) ∧
      (¬ fits → ∃ diagnostic ∈ parsed.diagnostics, diagnostic.cause = cause) := by
  rcases cases with ⟨few, whole, none⟩ | ⟨many, overrun⟩
  · exact ⟨⟨fun _ => few, fun _ => none⟩, fun _ => whole, fun many => absurd few many⟩
  · have recorded : parsed.diagnostics ≠ [] := by
      obtain ⟨_, mem, _⟩ := overrun
      exact List.ne_nil_of_mem mem
    exact ⟨⟨fun none => absurd none recorded, fun few => absurd few many⟩,
      fun few => absurd few many, fun _ => overrun⟩

namespace Concrete
namespace Program

section Reading

variable {program : Program} {source : String}

theorem statements_within
    (wellFormed : program.WellFormed)
    (same : Token.scan 0 source.toList = program.tokens) (fuel : Nat) (event : Event) :
    (Grammar.statements fuel [] ((Parser.ofSource source).note event)).Within
      (Parser.ofSource source) program.nesting
      (fun read ended => read = Stmt.eraseAll program.statements ∧ ended.diagnostics = #[]) := by
  have before : ((Parser.ofSource source).note event).Before program.tokens [] :=
    ⟨rfl, by rw [List.append_nil, ← same]; rfl, Nat.zero_le _⟩
  exact (Stmt.statements_within wellFormed before).congr Iff.rfl
    (fun _ _ read => ⟨read.1, read.2.diagnostics⟩)

/-- A well-formed text is either read as a whole, or too deep. -/
theorem parse_cases
    (wellFormed : program.WellFormed)
    (same : Token.scan 0 source.toList = program.tokens) :
    (program.nesting ≤ Parser.nestingLimit ∧
        (parse source).program = program.erase ∧ (parse source).diagnostics = []) ∨
      (¬ program.nesting ≤ Parser.nestingLimit ∧
        ∃ diagnostic ∈ (parse source).diagnostics,
          diagnostic.cause = .nestingTooDeep Parser.nestingLimit) := by
  obtain ⟨ended, holds, recorded⟩ :=
    Parser.exists_ended_of_meets (statements_within wellFormed same)
  have fits : (Parser.ofSource source).Fits program.nesting ↔
      program.nesting ≤ Parser.nestingLimit := by
    show 0 + _ ≤ _ ↔ _
    rw [Nat.zero_add]
  rw [recorded]
  rcases holds with ⟨few, all, none⟩ | ⟨many, overrun⟩
  · refine .inl ⟨fits.mp few, ?_, by rw [none]⟩
    rw [erase, ← all]
  · exact .inr ⟨mt fits.mpr many, overrun⟩

theorem statements_areSource (source : String) (fuel : Nat) (event : Event) :
    (Grammar.statements fuel [] ((Parser.ofSource source).note event)).Meets
      (fun values ended => (Parser.ofSource source).Extends ended ∧
        ended.current.kind = .eof ∧ Stmt.AreSource (Parser.ofSource source) ended [] values)
      (fun _ _ => True) := by
  refine Outcome.Meets.imp (statements_sound ⟨rfl, Nat.zero_le _⟩) ?_
  rintro values ended ⟨extension, ends, all, same, covers, clean⟩
  exact ⟨(Parser.Extends.note event _).trans extension, ends, all, same,
    ⟨covers.tokens, covers.fits⟩, clean⟩

/-- Whatever a text is, its statements are those of concrete statements that are made of its
tokens.  If nothing is recorded, they are all of the text. -/
theorem exists_source (source : String) :
    ∃ program : Program, (parse source).program = program.erase ∧
      (∀ token ∈ program.tokens, token ∈ Token.scan 0 source.toList) ∧
        program.nesting ≤ Parser.nestingLimit ∧
          ((parse source).diagnostics = [] →
            program.WellFormed ∧ Token.scan 0 source.toList = program.tokens) := by
  obtain ⟨ended, ⟨extension, ends, all, same, covers, clean⟩, recorded⟩ :=
    Parser.exists_ended_of_meets (statements_areSource source)
  have fits : 0 + Stmt.nestingOf all ≤ Parser.nestingLimit := covers.fits
  rw [Nat.zero_add] at fits
  refine ⟨⟨all⟩, ?_, covers.tokens, fits, fun none => ?_⟩
  · rw [erase, ← show _ = Stmt.eraseAll all from same.symm]
  · have nothing : ended.diagnostics = (Parser.ofSource source).diagnostics := by
      rw [recorded] at none
      exact Array.toList_inj.mp none
    obtain ⟨wellFormed, tokens⟩ := clean nothing
    have passed : ended.stream.tokens = [] :=
      Parser.tokens_eq_nil_of_current
        (fun _ mem => (Token.spelled_of_mem_scan (extension.mem_tokens mem)).spells.ne_eof) ends
    rw [passed, List.append_nil] at tokens
    exact ⟨wellFormed, tokens⟩

end Reading

section Acceptance

/-- A well-formed program is read from every text that has its tokens, with nothing recorded,
unless one of its expressions is nested too deeply.  Then this is recorded. -/
theorem parse_of_wellFormed
    (program : Program) (source : String)
    (wellFormed : program.WellFormed)
    (same : (tokenize source).dropLast = program.tokens) :
    ((parse source).diagnostics = [] ↔ ∀ e ∈ program.expressions, e.nesting ≤ 100) ∧
      ((∀ e ∈ program.expressions, e.nesting ≤ 100) →
        (parse source).program = program.erase) ∧
      ((∃ e ∈ program.expressions, 100 < e.nesting) →
        ∃ diagnostic ∈ (parse source).diagnostics, diagnostic.cause = .nestingTooDeep 100) := by
  rw [tokenize_dropLast] at same
  have deep : (∃ e ∈ program.expressions, 100 < e.nesting) ↔ ¬ program.nesting ≤ 100 := by
    rw [nesting_le_iff]
    simp
  rw [← nesting_le_iff, deep]
  exact Parsed.of_cases (parse_cases wellFormed same)

/-- The text `if (a) { -b } else { return 1 + 2 * (c); } d`, as a concrete program. -/
def twoStatements : Program :=
  { statements :=
      [ .expression
          (.conditional
            ⟨⟨.ifWord, "if", ⟨0, 2⟩⟩, .head _⟩
            ⟨⟨.openParen, "(", ⟨3, 4⟩⟩, .head _⟩
            (.identifier ⟨⟨.identifier, "a", ⟨4, 5⟩⟩, .head _⟩)
            ⟨⟨.closeParen, ")", ⟨5, 6⟩⟩, .head _⟩
            (.mk ⟨⟨.openBrace, "\x7b", ⟨7, 8⟩⟩, .head _⟩
              [ .expression
                  (.unary ⟨⟨.minus, "-", ⟨9, 10⟩⟩, .head _⟩
                    (.identifier ⟨⟨.identifier, "b", ⟨10, 11⟩⟩, .head _⟩))
                  none ]
              ⟨⟨.closeBrace, "\x7d", ⟨12, 13⟩⟩, .head _⟩)
            (.present ⟨⟨.elseWord, "else", ⟨14, 18⟩⟩, .head _⟩
              (.mk ⟨⟨.openBrace, "\x7b", ⟨19, 20⟩⟩, .head _⟩
                [ .returning ⟨⟨.returnWord, "return", ⟨21, 27⟩⟩, .head _⟩
                    (.binary
                      (.integer ⟨⟨⟨.integer, "1", ⟨28, 29⟩⟩, .head _⟩, 1, rfl⟩)
                      ⟨⟨.plus, "+", ⟨30, 31⟩⟩, by decide⟩
                      (.binary
                        (.integer ⟨⟨⟨.integer, "2", ⟨32, 33⟩⟩, .head _⟩, 2, rfl⟩)
                        ⟨⟨.star, "*", ⟨34, 35⟩⟩, by decide⟩
                        (.group
                          ⟨⟨.openParen, "(", ⟨36, 37⟩⟩, .head _⟩
                          (.identifier ⟨⟨.identifier, "c", ⟨37, 38⟩⟩, .head _⟩)
                          ⟨⟨.closeParen, ")", ⟨38, 39⟩⟩, .head _⟩)))
                    ⟨⟨.semicolon, ";", ⟨39, 40⟩⟩, .head _⟩ ]
                ⟨⟨.closeBrace, "\x7d", ⟨41, 42⟩⟩, .head _⟩)))
          none,
        .expression (.identifier ⟨⟨.identifier, "d", ⟨43, 44⟩⟩, .head _⟩) none ] }

/-- A conditional without its semicolon, with operators of two powers in it, and a statement behind
it. -/
theorem parse_of_wellFormed_twoStatements :
    twoStatements.WellFormed ∧
      (tokenize "if (a) \x7b -b \x7d else \x7b return 1 + 2 * (c); \x7d d").dropLast =
        twoStatements.tokens ∧
      (parse "if (a) \x7b -b \x7d else \x7b return 1 + 2 * (c); \x7d d").diagnostics = [] := by
  have wellFormed : twoStatements.WellFormed := by
    refine ⟨⟨trivial, ⟨⟨id, trivial⟩, trivial, trivial⟩, ?_, trivial, trivial⟩, ?_, trivial,
      trivial, trivial⟩
    · exact ⟨by decide, by decide, trivial, by decide, by decide, trivial, trivial⟩
    · exact fun _ => by decide
  have same :
      (tokenize "if (a) \x7b -b \x7d else \x7b return 1 + 2 * (c); \x7d d").dropLast =
        twoStatements.tokens := by
    decide +kernel
  have few : ∀ e ∈ twoStatements.expressions, e.nesting ≤ 100 :=
    nesting_le_iff.mp (by decide +kernel)
  exact ⟨wellFormed, same, (parse_of_wellFormed twoStatements _ wellFormed same).1.mpr few⟩

/-- Products bind more strongly than sums, these than comparisons, and these than equations. -/
example :
    (parse "a == b < c + d * -e; a != b > c - d / !e").program.statements.map (·.render) =
      ["(a==(b<(c+(d*(-e)))))", "(a!=(b>(c-(d/(!e)))))"] := by
  decide +kernel

/-- A text is accepted exactly if it is that of a well-formed program of bounded nesting, and the
syntax tree is that of this program. -/
theorem diagnostics_eq_nil_iff (source : String) :
    (parse source).diagnostics = [] ↔
      ∃ program : Program, program.WellFormed ∧
        program.tokens = (tokenize source).dropLast ∧
          (∀ e ∈ program.expressions, e.nesting ≤ 100) ∧
            (parse source).program = program.erase := by
  rw [tokenize_dropLast]
  constructor
  · intro none
    obtain ⟨program, same, _, few, clean⟩ := exists_source source
    obtain ⟨wellFormed, tokens⟩ := clean none
    exact ⟨program, wellFormed, tokens.symm, nesting_le_iff.mp few, same⟩
  · rintro ⟨program, wellFormed, tokens, few, _⟩
    exact (Parsed.of_cases (parse_cases wellFormed tokens.symm)).1.mpr (nesting_le_iff.mpr few)

end Acceptance

end Program
end Concrete
end LetLang
