import LetLang.Proofs.Parser.Layout
import LetLang.Proofs.Parser.Soundness
import LetLang.Proofs.Syntax.Spans

/-!
# Parsing does not depend on the layout

**Input.** Two source texts with tokens of the same kinds and literals, whose blanks may differ.

**Result.** `parse_eq_of_look_eq`: the texts are parsed to one tree, with one text, and to
diagnostics of the same causes.  Wherever a node or a diagnostic of the one text begins or ends with
a token, that of the other text does so with the token of the same number.

One byte may be the end of a token and the beginning of the next one in the one text, and these may
be apart in the other.  So places are compared by the tokens that begin or end there, not by bytes.
-/

namespace LetLang

/-- The bytes from where the token with a number begins to where the one with another number
ends. -/
def Token.through (source : String) (numbers : Nat × Nat) : Span :=
  ⟨(ofSource source numbers.1).start, (ofSource source numbers.2).stop⟩

/-- A diagnostic with a cause where the token with a number begins. -/
def Token.report (source : String) (report : Cause × Nat) : Diagnostic :=
  ⟨report.1, (ofSource source report.2).start⟩

/-- A text is parsed to some statements whose places are numbers of tokens: this is where its nodes
begin and end, and where its diagnostics are. -/
structure LaysOut
    (source : String) (all : List Stmt) (spans : List (Nat × Nat)) (reports : List (Cause × Nat)) :
    Prop where
  statements : (parse source).program.statements = all.map (Stmt.relocate (Token.byteAt source))
  spans : (parse source).program.spans = spans.map (Token.through source)
  diagnostics : (parse source).diagnostics = reports.map (Token.report source)

namespace Parser

section Bare

variable {source : String} {token : Token}

/-- A numbered token has its number twice for where it begins, and one more for where it ends. -/
theorem exists_number_of_mem_bare (mem : token ∈ (bare source).stream.tokens) :
    ∃ number, token.start = 2 * number ∧ token.stop = 2 * number + 1 := by
  obtain ⟨number, inside, rfl⟩ := List.mem_mapIdx.mp mem
  have notEnd := (Token.spelled_of_mem_scan (List.getElem_mem inside)).spells.ne_eof
  exact ⟨number, rfl, if_neg notEnd⟩

/-- A span between two numbered tokens is found again by their numbers. -/
theorem relocate_of_joins {span : Span} (joins : span.Joins (bare source).stream.tokens) :
    span.relocate (Token.byteAt source) = Token.through source (span.start / 2, span.stop / 2) := by
  obtain ⟨first, isFirst, last, isLast, rfl⟩ := joins
  obtain ⟨number, start, _⟩ := exists_number_of_mem_bare isFirst
  obtain ⟨number', _, stop⟩ := exists_number_of_mem_bare isLast
  have half : 2 * number / 2 = number := by omega
  have half' : (2 * number' + 1) / 2 = number' := by omega
  simp only [Span.relocate, Token.through, start, stop, half, half', Token.byteAt_even,
    Token.byteAt_odd]

/-- A diagnostic at a numbered token is found again by its number. -/
theorem relocate_of_mem_ahead_bare {diagnostic : Diagnostic}
    (ahead : token ∈ (bare source).ahead) (position : diagnostic.position = token.start) :
    diagnostic.relocate (Token.byteAt source) =
      Token.report source (diagnostic.cause, diagnostic.position / 2) := by
  rw [ahead_bare] at ahead
  obtain ⟨number, _, start⟩ := Token.start_of_mem_allNumbered ahead
  have half : 2 * number / 2 = number := by omega
  simp only [Diagnostic.relocate, Token.report, position, start, half, Token.byteAt_even]

/-- What the numbered tokens of a text are parsed to says where the nodes of the text are, and its
diagnostics. -/
theorem laysOut_of_done
    {fuel : Nat} {all : List Stmt} {ended : Parser}
    (done : Grammar.statements fuel [] (bare source) = .done all ended)
    (statements :
      (parse source).program.statements = all.map (Stmt.relocate (Token.byteAt source)))
    (recorded : (parse source).diagnostics =
      ended.diagnostics.toList.map (Diagnostic.relocate (Token.byteAt source))) :
    LaysOut source all
      ((Stmt.spansOf all).map fun span => (span.start / 2, span.stop / 2))
      (ended.diagnostics.toList.map fun diagnostic =>
        (diagnostic.cause, diagnostic.position / 2)) := by
  refine ⟨statements, ?_, ?_⟩
  · have sound : Step.Yields _ _ _ :=
      @Concrete.statements_sound fuel [] (bare source) ⟨rfl, Nat.zero_le _⟩
    rw [Step.Yields, done] at sound
    obtain ⟨_, _, concrete, same, covers, _⟩ := sound
    have joins : ∀ span ∈ Stmt.spansOf all, span.Joins (bare source).stream.tokens := by
      rw [← show _ = all from same]
      exact fun span mem => (Concrete.Stmt.joins_spansOf concrete span mem).mono covers.tokens
    rw [Program.spans, statements, ← Stmt.relocateAll_eq_map, Stmt.spansOf_relocateAll,
      List.map_map]
    exact List.map_congr_left fun span mem => relocate_of_joins (joins span mem)
  · have reports := Grammar.statements_reports fuel [] (regular_bare source)
    rw [Step.Reports, done] at reports
    obtain ⟨added, whole, _, sound⟩ := Reports.recorded reports
    have whole : ended.diagnostics.toList = added := whole
    rw [recorded, List.map_map]
    refine List.map_congr_left fun diagnostic mem => ?_
    rw [whole] at mem
    obtain ⟨_, token, ahead, describes⟩ := sound diagnostic mem
    exact relocate_of_mem_ahead_bare ahead describes.position

/-- Texts whose tokens look the same have the same numbered tokens. -/
theorem bare_eq_of_look_eq {first second : String}
    (same : (tokenize first).map Token.look = (tokenize second).map Token.look) :
    bare first = bare second := by
  have numbered : Token.allNumbered first = Token.allNumbered second := by
    refine List.ext_getElem? fun number => ?_
    rw [Token.getElem?_allNumbered, Token.getElem?_allNumbered, same]
  rw [← ahead_bare, ← ahead_bare, ahead, ahead] at numbered
  obtain ⟨tokens, ends⟩ := List.append_inj' numbered rfl
  have stop : (bare first).stream.stop = (bare second).stream.stop :=
    congrArg Token.start (List.singleton_inj.mp ends)
  have stream : (bare first).stream = (bare second).stream := by
    show TokenStream.mk (bare first).stream.tokens (bare first).stream.stop = _
    rw [tokens, stop]
  -- Nothing else of a parser that has read nothing depends on the text.
  calc bare first = { ofSource first with stream := (bare first).stream } := rfl
    _ = { ofSource first with stream := (bare second).stream } := by rw [stream]
    _ = bare second := rfl

end Bare

end Parser

/-- Texts whose tokens are of the same kinds and have the same literals are parsed to the same, but
for the bytes of the tokens.  Every node and every diagnostic of the one text is where that of the
other is, counted in tokens, and the texts of the trees are equal. -/
theorem parse_eq_of_look_eq (first second : String)
    (same : (tokenize first).map Token.look = (tokenize second).map Token.look) :
    (parse first).program.render = (parse second).program.render ∧
      ∃ all spans reports, LaysOut first all spans reports ∧ LaysOut second all spans reports := by
  obtain ⟨all, ended, done, statements, recorded⟩ :=
    Parser.exists_bare first (Nat.le_refl (Parser.bare first).fuel)
  obtain ⟨all', ended', done', statements', recorded'⟩ :=
    Parser.exists_bare second (Nat.le_refl (Parser.bare second).fuel)
  have layout := Parser.laysOut_of_done done statements recorded
  have layout' := Parser.laysOut_of_done done' statements' recorded'
  rw [Parser.bare_eq_of_look_eq same, done'] at done
  cases done
  refine ⟨?_, all, _, _, layout, layout'⟩
  rw [Program.render, Program.render, statements, statements', Stmt.map_render_relocate,
    Stmt.map_render_relocate]

/-- The second text has blanks where the first has none, and the other way round. -/
theorem parse_eq_of_look_eq_blanks :
    (tokenize "if(a)\x7blet x=-1;b 2\x7d )").map Token.look =
        (tokenize " if ( a ) \x7b let x = - 1 ; b\n2 \x7d)").map Token.look ∧
      (parse "if(a)\x7blet x=-1;b 2\x7d )").program.render =
        (parse " if ( a ) \x7b let x = - 1 ; b\n2 \x7d)").program.render ∧
      ∃ all spans reports, LaysOut "if(a)\x7blet x=-1;b 2\x7d )" all spans reports ∧
        LaysOut " if ( a ) \x7b let x = - 1 ; b\n2 \x7d)" all spans reports := by
  have same : (tokenize "if(a)\x7blet x=-1;b 2\x7d )").map Token.look =
      (tokenize " if ( a ) \x7b let x = - 1 ; b\n2 \x7d)").map Token.look := by
    decide +kernel
  exact ⟨same, parse_eq_of_look_eq _ _ same⟩

end LetLang
