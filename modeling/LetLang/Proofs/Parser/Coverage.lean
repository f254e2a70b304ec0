import LetLang.Proofs.Parser.Extents
import LetLang.Proofs.Parser.Operations
import LetLang.Proofs.Text.Lines

/-!
# The bytes of a tree

**Input.** A source text, whether it is a valid program or not.

**Results.** `Parser.readExpression_extent`: an expression that is read somewhere in the text covers
the tokens that the parser has passed, but for the parentheses around it.  `parse_outlines_nest`:
the statements of the program stand one behind the other, and the outline of each of them nests.

Both are read off the tokens of the text, which stand in a row, and the tokens that the grammar has
passed.
-/

namespace LetLang

open Text

section Boundaries

variable {source : String}

/-- An offset of a text, its end included, that is not inside a character. -/
def Text.IsBoundary (source : String) (offset : Nat) : Prop :=
  offset ≤ source.utf8ByteSize ∧ (String.Pos.Raw.mk offset).IsValid source

theorem Text.isBoundary_of_append
    {before after : List Char} (whole : source.toList = before ++ after) :
    IsBoundary source (byteLength before) := by
  have valid : (String.Pos.Raw.mk (byteLength before)).IsValid source :=
    isValid_iff_splitAtByte?.mpr ⟨before, after, splitAtByte?_eq_some_iff.mpr ⟨whole, rfl⟩⟩
  exact ⟨valid.le_rawEndPos, valid⟩

/-- A piece of a text begins and ends on a boundary. -/
theorem Text.bounded_of_slice?
    {span : Span} {piece : List Char} (nonempty : span.start < span.stop)
    (h : slice? span source.toList = some piece) :
    span.Bounded (IsBoundary source) := by
  obtain ⟨before, behind, whole, front, size⟩ := exists_of_slice? h
  have start := isBoundary_of_append whole
  rw [← List.append_assoc] at whole
  have stop := isBoundary_of_append whole
  rw [byteLength_append, size, front, Nat.add_sub_cancel' (Nat.le_of_lt nonempty)] at stop
  exact ⟨nonempty, front ▸ start, stop⟩

/-- The tokens of a text stand in a row. -/
theorem Token.inRow_scan (source : String) :
    Outline.InRow (IsBoundary source) (scan 0 source.toList) := by
  have cut := segments_scan 0 source.toList
  constructor
  · intro token mem
    obtain ⟨_, nonempty, piece⟩ := @Segments.pieces _ [] _ _ cut rfl token mem
    exact bounded_of_slice? nonempty piece
  · exact (List.pairwise_append.mp (cut.ordered rfl).2).1.imp And.right

/-- A closing brace takes one byte. -/
theorem Token.Segments.stop_of_closeBrace
    {offset : Nat} {text : List Char} {tokens : List Token} (h : Segments offset text tokens) :
    ∀ token ∈ tokens, token.kind = .closeBrace → token.stop = token.start + 1 := by
  induction h with
  | gap =>
      simp
  | token _ occurs _ ih =>
      refine List.forall_mem_cons.mpr ⟨?_, ih⟩
      rintro rfl
      rw [occurs.text_eq_name (by decide)]
      rfl

end Boundaries

namespace Parser

section Places

variable {source : String} {parser ended : Parser}

/-- A parser of the language that is somewhere in a text. -/
theorem plain_of_suffix
    (stands : parser.stream.tokens <:+ Token.scan 0 source.toList)
    (standard : parser.handlers = .standard) :
    parser.Plain :=
  ⟨standard, fun token mem =>
    (Token.segments_scan 0 source.toList).stop_of_closeBrace token (stands.subset mem)⟩

/-- The tokens that a parser passes are those from its place on up to that of the last of them. -/
theorem Passes.exists_tokenize_eq
    {tokens : List Token} (stands : parser.stream.tokens <:+ Token.scan 0 source.toList)
    (passed : parser.Passes tokens ended) (nonempty : tokens ≠ []) :
    ∃ before behind, tokenize source = before ++ (tokens ++ behind) ∧
      parser.place source = before.length ∧
        ended.place source + 1 = before.length + tokens.length := by
  obtain ⟨before, whole⟩ := stands
  have here := congrArg List.length whole
  have there := congrArg List.length passed.tokens
  have last : ended.stream.tokens.length = ended.behind.length + 1 := by
    have := List.length_pos_iff.mpr passed.stands
    rw [behind, List.length_tail]
    omega
  have positive := List.length_pos_iff.mpr nonempty
  rw [passed.tokens] at whole
  simp only [List.length_append] at here there
  refine ⟨before, ended.behind ++ [.endOfInput (byteLength source.toList)], ?_, ?_, ?_⟩
  · rw [tokenize, ← whole, List.append_assoc, List.append_assoc]
  · rw [place, remaining]
    omega
  · rw [place, remaining]
    omega

end Places

section Expressions

variable {source : String} {parser ended : Parser} {power : Power} {e : Expr}

/-- What is read as an expression has been read from the tokens that were passed. -/
theorem isBetween_of_readExpression
    (plain : parser.Plain) (read : readExpression power parser = (.ok e, ended)) :
    e.IsBetween parser ended := by
  have met := ((Grammar.extents_of_fuel parser.fuel).expression power plain).meets
  rw [done_of_run read] at met
  exact met

/-- An expression that was read from one place of a text to another begins with the first token from
there on that is no opening parenthesis, and ends with the last one up to there that is no closing
parenthesis.  It covers all of the tokens between the places, but for opening parentheses in front
of it and closing ones behind it. -/
theorem readExpression_extent
    (stands : parser.stream.tokens <:+ Token.scan 0 source.toList)
    (standard : parser.handlers = .standard)
    (read : readExpression power parser = (.ok e, ended)) :
    parser.place source ≤ ended.place source ∧
    Token.contentStart? ((tokenize source).drop (parser.place source)) = some e.span.start ∧
    Token.contentStop? ((tokenize source).take (ended.place source + 1)) = some e.span.stop ∧
    ∀ token ∈ ((tokenize source).take (ended.place source + 1)).drop (parser.place source),
      token.span.Inside e.span ∨
      (token.kind = .openParen ∧ token.span.Before e.span) ∨
      (token.kind = .closeParen ∧ e.span.Before token.span) := by
  obtain ⟨tokens, passed, onExpression⟩ :=
    isBetween_of_readExpression (plain_of_suffix stands standard) read
  have nonempty := onExpression.ne_nil
  obtain ⟨before, behind, whole, here, there⟩ := passed.exists_tokenize_eq stands nonempty
  have row : Outline.InRow (IsBoundary source) tokens := by
    refine (Token.inRow_scan source).sublist (List.Sublist.trans ?_ stands.sublist)
    rw [passed.tokens]
    exact List.sublist_append_left _ _
  have front : (tokenize source).take (ended.place source + 1) = before ++ tokens := by
    rw [whole, there, ← List.append_assoc, ← List.length_append, List.take_left]
  rw [front, here, List.drop_left]
  refine ⟨?_, ?_, Token.contentStop?_append onExpression.stop, onExpression.covers row⟩
  · have := List.length_pos_iff.mpr nonempty
    omega
  · rw [whole, List.drop_left]
    exact Token.contentStart?_append onExpression.start

/-- A name, and behind it a product with parentheses on either side. -/
def productText : String :=
  "x ((a) + b) * (c)"

/-- The product begins with the name `a` and ends with the name `c`. -/
theorem readExpression_extent_product :
    ∃ e ended, readExpression .lowest (ofSource productText).advance = (.ok e, ended) ∧
      ended.place productText = 11 ∧ e.span = ⟨4, 16⟩ := by
  have isRead : (readExpression .lowest (ofSource productText).advance).1.toOption.isSome := by
    decide +kernel
  have place : (readExpression .lowest
      (ofSource productText).advance).2.place productText = 11 := by
    decide +kernel
  have first : Token.contentStart? ((tokenize productText).drop
      ((ofSource productText).advance.place productText)) = some 4 := by
    decide +kernel
  have last : Token.contentStop? ((tokenize productText).take 12) = some 16 := by
    decide +kernel
  cases outcome : readExpression .lowest (ofSource productText).advance with
  | mk result ended =>
      rw [outcome] at isRead place
      cases result with
      | error diagnostic =>
          cases isRead
      | ok e =>
          obtain ⟨_, start, stop, _⟩ :=
            @readExpression_extent productText (ofSource productText).advance ended .lowest e
              (List.tail_suffix _) rfl outcome
          rw [place] at stop
          have begins : 4 = e.span.start := Option.some.inj (first.symm.trans start)
          have ends : 16 = e.span.stop := Option.some.inj (last.symm.trans stop)
          refine ⟨e, ended, rfl, place, ?_⟩
          rw [begins, ends]

end Expressions

end Parser

/-- Whatever has been recorded, the outlines of the statements of a program nest: each of their
nodes covers some bytes between two boundaries of the text, and its parts are inside it, one behind
the other.  The statements themselves are one behind the other, too. -/
theorem parse_outlines_nest (source : String) :
    (∀ s ∈ (parse source).program.statements, s.outline.Nests (IsBoundary source)) ∧
      (parse source).program.statements.Pairwise fun s next => s.span.Before next.span := by
  have read (fuel : Nat) (event : Event) :
      (Grammar.statements fuel [] ((Parser.ofSource source).note event)).Meets
        (fun values ended => Stmt.AreBetween (Parser.ofSource source) ended [] values)
        (fun _ _ => True) :=
    (Grammar.statements_extents (Parser.plain_of_suffix (List.suffix_refl _) rfl)).meets
  obtain ⟨ended, ⟨all, tokens, same, passed, grouping⟩, _⟩ := Parser.exists_ended_of_meets read
  have whole : Token.scan 0 source.toList = tokens ++ ended.stream.tokens := passed
  have row : Outline.InRow (IsBoundary source) tokens :=
    (Token.inRow_scan source).sublist (whole ▸ List.sublist_append_left _ _)
  obtain ⟨each, ordered⟩ := grouping.nests row
  rw [Stmt.outlines_eq_map] at each ordered
  rw [← same, List.reverse_nil, List.nil_append]
  constructor
  · exact fun s mem => (each s.outline (List.mem_map_of_mem mem)).nests
  · simpa [List.pairwise_map] using ordered

/-- Two statements fail here, one of them in a block, and the others are where they stand. -/
example : (parse "a; let; if (b) \x7b let 1; c \x7d").program.statements.map Stmt.span =
    [⟨0, 1⟩, ⟨8, 27⟩] := by
  decide +kernel

end LetLang
