import LetLang.Proofs.Diagnostic.Rows
import LetLang.Proofs.Parser.Truth
import LetLang.Proofs.Text.Lines

/-!
# The caret of a report

**Input.** A source text, one of its diagnostics, and the name of a file that is one row.

**Result.** `Diagnostic.report_pointsAt`: the report has six rows.  The fourth shows the line of
the diagnostic without the spaces before it and the blanks behind it, and the caret that ends the
fifth is under the first character of the token at fault, or behind the line where this is the end
of the input.

The shown line begins later than the line in the text, by the spaces that have been dropped, and
both rows have the number of the line before them.  A token begins with no blank, so neither the
spaces nor the blanks that are dropped are those at its place.  None of this depends on how long
the rows are, since `Report.padLeft` takes any width.
-/

namespace LetLang

open Text

namespace Report

section Trimmed

variable {text spaces shown blanks : List Char} {column : Nat} {c : Char}

/-- A text without the spaces before it and the blanks behind it. -/
structure Trimmed (text spaces shown blanks : List Char) : Prop where
  whole : text = spaces ++ (shown ++ blanks)
  allSpaces : ∀ c ∈ spaces, c = ' '
  noSpace : ∀ c ∈ (shown ++ blanks).head?, c ≠ ' '
  allBlank : ∀ c ∈ blanks, isBlank c
  noBlank : ∀ c ∈ shown.getLast?, isBlank c = false

theorem trimmed_shownText (text : List Char) :
    Trimmed text (text.takeWhile (· = ' ')) (shownText text)
      ((text.dropWhile (· = ' ')).rtakeWhile isBlank) := by
  have behind : shownText text ++ (text.dropWhile (· = ' ')).rtakeWhile isBlank =
      text.dropWhile (· = ' ') :=
    List.rdropWhile_append_rtakeWhile
  constructor
  case whole =>
    rw [behind, List.takeWhile_append_dropWhile]
  case allSpaces =>
    intro c mem
    simpa using List.mem_takeWhile_imp mem
  case noSpace =>
    intro c first
    rw [behind] at first
    simpa using Lexeme.parted_of_dropWhile (· = ' ') text c first
  case allBlank =>
    exact fun _ => List.mem_rtakeWhile_imp
  case noBlank =>
    exact parted_of_rdropWhile isBlank (text.dropWhile (· = ' '))

/-- A character that is not blank is shown, at its column less the spaces. -/
theorem Trimmed.getElem?_shown (h : Trimmed text spaces shown blanks)
    (inside : text[column]? = some c) (notBlank : isBlank c = false) :
    shown[column - spaces.length]? = some c := by
  have apart {part : List Char} {place : Nat} (all : ∀ c ∈ part, isBlank c) :
      part[place]? ≠ some c := by
    intro found
    rw [all c (List.mem_of_getElem? found)] at notBlank
    cases notBlank
  have allBlank : ∀ c ∈ spaces, isBlank c := by
    intro c mem
    rw [h.allSpaces c mem]
    decide
  rw [h.whole] at inside
  rcases Nat.lt_or_ge column spaces.length with before | behind
  · rw [List.getElem?_append_left before] at inside
    exact absurd inside (apart allBlank)
  · rw [List.getElem?_append_right behind] at inside
    rcases Nat.lt_or_ge (column - spaces.length) shown.length with here | behind
    · rwa [List.getElem?_append_left here] at inside
    · rw [List.getElem?_append_right behind] at inside
      exact absurd inside (apart h.allBlank)

/-- Behind the end of a text, less the spaces, nothing of it is shown. -/
theorem Trimmed.length_shown_le (h : Trimmed text spaces shown blanks)
    (beyond : text.length ≤ column) :
    shown.length ≤ column - spaces.length := by
  rw [h.whole, List.length_append, List.length_append] at beyond
  omega

/-- Nothing is shown of a line feed that ends a line. -/
theorem Trimmed.feed_not_mem (h : Trimmed text spaces shown blanks)
    (last : '\n' ∉ text.dropLast) :
    '\n' ∉ shown := by
  intro mem
  apply last
  have inside : '\n' ∈ (shown ++ blanks).dropLast := by
    cases noMore : blanks with
    | nil =>
        have some : shown ≠ [] := List.ne_nil_of_mem mem
        have other := h.noBlank _ (List.getLast?_eq_some_getLast some)
        rw [← List.dropLast_concat_getLast some, List.mem_append, List.mem_singleton] at mem
        rw [List.append_nil]
        rcases mem with mem | same
        · exact mem
        · rw [← same] at other
          exact absurd other (by decide)
    | cons blank others =>
        rw [List.dropLast_append_of_ne_nil (List.cons_ne_nil blank others)]
        exact List.mem_append_left _ mem
  have some : shown ++ blanks ≠ [] := List.ne_nil_of_mem (List.mem_append_left blanks mem)
  rw [h.whole, List.dropLast_append_of_ne_nil some]
  exact List.mem_append_right _ inside

end Trimmed

section Excerpt

variable {line : Line} {text spaces shown blanks : List Char}

/-- The row of an excerpt that shows the line, with its number. -/
def numbered (line : Line) (shown : List Char) : List Char :=
  (toString line.number).toList ++ [' ', '|', ' '] ++ shown

/-- The space before the bars of an excerpt. -/
def margin (line : Line) : List Char :=
  List.replicate ((toString line.number).length + 1) ' '

/-- The row of an excerpt that holds the caret, up to the caret. -/
def underline (line : Line) (spaces : List Char) : List Char :=
  margin line ++ ['|', ' '] ++ List.replicate (line.column - spaces.length) '-'

theorem toList_padLeft (fill : Char) (width : Nat) (text : String) :
    (padLeft fill width text).toList =
      List.replicate (width - text.length) fill ++ text.toList := by
  rw [padLeft, String.toList_append, String.toList_ofList]

/-- The rows of an excerpt, character by character. -/
theorem map_toList_excerpt (line : Line) (message : String) :
    (excerpt line message).map String.toList =
      [ margin line ++ ['|'],
        numbered line (shownText line.text),
        underline line (line.text.takeWhile (· = ' ')) ++ ['^'],
        margin line ++ ['=', ' '] ++ message.toList ] := by
  have bar : "|".length = 1 := rfl
  have mark : "=".length = 1 := rfl
  have caret : "^".length = 1 := rfl
  simp [excerpt, toList_padLeft, numbered, underline, margin, bar, mark, caret]

/-- The caret has as many characters before it as the number and the shown line have before the
column, less the spaces. -/
theorem length_underline (line : Line) (spaces : List Char) :
    (underline line spaces).length =
      ((toString line.number).toList ++ [' ', '|', ' ']).length +
        (line.column - spaces.length) := by
  simp only [underline, margin, List.length_append, List.length_replicate, List.length_cons,
    List.length_nil, String.length_toList]

theorem getElem?_numbered (line : Line) (spaces shown : List Char) :
    (numbered line shown)[(underline line spaces).length]? =
      shown[line.column - spaces.length]? := by
  rw [numbered, length_underline, List.getElem?_append_right (Nat.le_add_right _ _),
    Nat.add_sub_cancel_left]

theorem length_numbered_le (h : shown.length ≤ line.column - spaces.length) :
    (numbered line shown).length ≤ (underline line spaces).length := by
  rw [numbered, length_underline, List.length_append]
  exact Nat.add_le_add_left h _

/-- Every character before the caret is a space, a bar or a dash. -/
theorem mem_underline {c : Char} (mem : c ∈ underline line spaces) :
    c = ' ' ∨ c = '|' ∨ c = '-' := by
  simp only [underline, margin, List.mem_append, List.mem_replicate, List.mem_cons,
    List.not_mem_nil, or_false] at mem
  rcases mem with ((⟨_, same⟩ | same | same) | ⟨_, same⟩) <;> simp [same]

theorem caret_not_mem_underline (line : Line) (spaces : List Char) :
    '^' ∉ underline line spaces := by
  intro mem
  exact absurd (mem_underline mem) (by decide)

theorem feed_not_mem_numbered (h : '\n' ∉ shown) :
    '\n' ∉ numbered line shown := by
  simp only [numbered, List.mem_append, not_or]
  exact ⟨⟨isRow_toString line.number, by decide⟩, h⟩

/-- An excerpt shows no line feed, where the shown line and the message hold none. -/
theorem feed_not_mem_excerpt {message : String} (noFeed : '\n' ∉ shownText line.text)
    (oneRow : IsRow message) :
    ∀ row ∈ (excerpt line message).map String.toList, '\n' ∉ row := by
  have blank : '\n' ∉ margin line := by
    simp [margin]
  intro row mem
  simp only [map_toList_excerpt, List.mem_cons, List.not_mem_nil, or_false] at mem
  rcases mem with rfl | rfl | rfl | rfl
  · rw [List.mem_append, not_or]
    exact ⟨blank, by decide⟩
  · exact feed_not_mem_numbered noFeed
  · rw [List.mem_append, not_or]
    exact ⟨fun mem => absurd (mem_underline mem) (by decide), by decide⟩
  · rw [List.mem_append, List.mem_append, not_or, not_or]
    exact ⟨⟨blank, by decide⟩, oneRow⟩

end Excerpt

/-- Six rows of which the fourth shows a line, without the spaces before it and the blanks behind
it, and the fifth ends with its only caret, which is under the first character of a token of the
line, or behind the line where the token is the end of the input. -/
structure PointsAt (rows : List (List Char)) (line : Line) (token : Token) : Prop where
  six : rows.length = 6
  noFeed : ∀ row ∈ rows, '\n' ∉ row
  caret : ∃ spaces shown blanks before,
    Trimmed line.text spaces shown blanks ∧
      rows[3]? = some (numbered line shown) ∧ rows[4]? = some (before ++ ['^']) ∧ '^' ∉ before ∧
      (token.kind ≠ .eof → ∃ c, token.literal.toList.head? = some c ∧
        (numbered line shown)[before.length]? = some c) ∧
      (token.kind = .eof → (numbered line shown).length ≤ before.length)

end Report

section Place

variable {source : String} {token : Token}

/-- Where a token of a text begins: at a character that is not blank and with which its literal
begins, or behind all characters. -/
theorem Token.exists_place (mem : token ∈ tokenize source) :
    ∃ before after, source.toList = before ++ after ∧ byteLength before = token.start ∧
      (token.kind ≠ .eof → ∃ c, token.literal.toList.head? = some c ∧
        after.head? = some c ∧ isBlank c = false) ∧
      (token.kind = .eof → after = []) := by
  rcases List.mem_append.mp mem with mem | mem
  · obtain ⟨kind, nonempty, piece⟩ :=
      @Segments.pieces _ [] _ _ (segments_scan 0 source.toList) rfl token mem
    obtain ⟨before, behind, whole, size, size'⟩ := exists_of_slice? piece
    have notBlank := (spelled_of_mem_scan mem).notBlank
    cases literal : token.literal.toList with
    | nil =>
        rw [literal, byteLength_nil] at size'
        have positive : 0 < token.span.stop - token.span.start := Nat.sub_pos_of_lt nonempty
        omega
    | cons c cs =>
        rw [literal] at whole notBlank
        refine ⟨before, c :: cs ++ behind, whole, size, ?_, fun atEnd => absurd atEnd kind⟩
        exact fun _ => ⟨c, rfl, rfl, notBlank c rfl⟩
  · obtain rfl := List.mem_singleton.mp mem
    refine ⟨source.toList, [], (List.append_nil _).symm, rfl, ?_, fun _ => rfl⟩
    exact fun other => absurd rfl other

/-- Every diagnostic of a text is at a token of it. -/
theorem exists_token_of_mem {diagnostic : Diagnostic}
    (mem : diagnostic ∈ (parse source).diagnostics) :
    ∃ token ∈ tokenize source, diagnostic.Describes token := by
  obtain ⟨ended, reports, recorded⟩ := Parser.exists_reports_ofSource source
  obtain ⟨added, whole, _, sound⟩ := reports.recorded
  rw [recorded.trans whole] at mem
  obtain ⟨_, token, ahead, describes⟩ := sound diagnostic mem
  exact ⟨token, ahead, describes⟩

/-- An integer token of a text is on one row. -/
theorem Token.isRow_literal (mem : token ∈ tokenize source) (kind : token.kind = .integer) :
    Report.IsRow token.literal := by
  rcases List.mem_append.mp mem with mem | mem
  · have spells := (spelled_of_mem_scan mem).spells
    rw [kind] at spells
    obtain ⟨_, _, _, all⟩ := spells.numbers
    intro feed
    exact absurd (all _ feed) (by decide)
  · obtain rfl := List.mem_singleton.mp mem
    cases kind

end Place

namespace Report

variable {source file : String} {diagnostic : Diagnostic} {token : Token}

/-- The report of a diagnostic at a token points at the token. -/
theorem pointsAt_reportRows (oneRow : IsRow file) (mem : token ∈ tokenize source)
    (describes : diagnostic.Describes token) :
    ∃ line, Line.at? source.toList diagnostic.position = some line ∧
      PointsAt ((diagnostic.reportRows source file).map String.toList) line token := by
  obtain ⟨before, after, whole, size, inside, atEnd⟩ := Token.exists_place mem
  have found := Line.at?_append before after
  rw [← whole, size, ← describes.position] at found
  obtain ⟨_, _, _, noFeed⟩ := exists_wholeLines before
  refine ⟨_, found, ?_⟩
  generalize here : (⟨_, _, _⟩ : Line) = line at found ⊢
  have text : line.text = Line.unfinished before ++ Line.throughFeed after :=
    congrArg Line.text here.symm
  have column : line.column = (Line.unfinished before).length :=
    congrArg Line.column here.symm
  have trimmed := trimmed_shownText line.text
  have rows : (diagnostic.reportRows source file).map String.toList =
      (heading diagnostic.cause).toList :: ("-> " ++ file).toList ::
        (excerpt line diagnostic.cause.message).map String.toList := by
    simp only [Diagnostic.reportRows, found, List.map_cons, List.cons_append, List.nil_append]
  constructor
  case six =>
    rw [rows, map_toList_excerpt]
    rfl
  case noFeed =>
    have shown : '\n' ∉ shownText line.text := by
      refine trimmed.feed_not_mem ?_
      rw [text]
      exact feed_not_mem_dropLast noFeed after
    have advice : IsRow (heading diagnostic.cause) := by
      refine isRow_heading fun literal fault cause => ?_
      obtain ⟨kind, rfl, _⟩ := cause ▸ describes.holds
      exact Token.isRow_literal mem kind
    intro row inRows
    rw [rows, List.mem_cons, List.mem_cons] at inRows
    rcases inRows with rfl | rfl | inExcerpt
    · exact advice
    · exact IsRow.append (by decide) oneRow
    · exact feed_not_mem_excerpt shown (isRow_message diagnostic.cause) row inExcerpt
  case caret =>
    refine ⟨_, _, _, underline line (line.text.takeWhile (· = ' ')), trimmed, ?_, ?_,
      caret_not_mem_underline _ _, ?_, ?_⟩
    · rw [rows, map_toList_excerpt]
      rfl
    · rw [rows, map_toList_excerpt]
      rfl
    · intro notEnd
      obtain ⟨c, literal, first, notBlank⟩ := inside notEnd
      refine ⟨c, literal, ?_⟩
      rw [getElem?_numbered]
      refine trimmed.getElem?_shown ?_ notBlank
      rw [text, column, List.getElem?_append_right (Nat.le_refl _), Nat.sub_self,
        ← List.head?_eq_getElem?, head?_throughFeed, first]
    · intro isEnd
      refine length_numbered_le (trimmed.length_shown_le ?_)
      rw [text, column, atEnd isEnd]
      exact Nat.le_of_eq (congrArg List.length (List.append_nil _))

end Report

namespace Diagnostic

/-- The report of a diagnostic of a text has six rows.  The fourth shows the line of the diagnostic,
and the caret of the fifth is under the token at fault.

This is so for every column.  A formatter without widths above 65535 makes the same report as long
as the column of the line is at most 65534 (`Report.padLeft`). -/
theorem report_pointsAt (source file : String) (oneRow : Report.IsRow file) :
    ∀ diagnostic ∈ (parse source).diagnostics, ∃ line token rows,
      Line.at? source.toList diagnostic.position = some line ∧
      (tokenize source).filter (fun token => token.start = diagnostic.position) = [token] ∧
      (diagnostic.report source file).toList = rows.flatMap (· ++ ['\n']) ∧
      Report.PointsAt rows line token := by
  intro diagnostic mem
  obtain ⟨token, ahead, describes⟩ := exists_token_of_mem mem
  obtain ⟨line, found, points⟩ := Report.pointsAt_reportRows oneRow ahead describes
  have single : (tokenize source).filter (fun token => token.start = diagnostic.position) =
      [token] := by
    rw [describes.position]
    exact Token.filter_start_eq (Parser.regular_ofSource source).ordered ahead
  exact ⟨line, token, _, found, single, toList_report diagnostic source file, points⟩

/-- The number is behind spaces on the second line, and the text ends behind it. -/
theorem report_pointsAt_secondLine :
    Report.IsRow "main.let" ∧
      ⟨.unexpectedToken .identifier .integer, 10⟩ ∈ (parse "é\n   let 5").diagnostics ∧
      ∃ line token rows, Line.at? "é\n   let 5".toList 10 = some line ∧
        (tokenize "é\n   let 5").filter (fun token => token.start = 10) = [token] ∧
        (report ⟨.unexpectedToken .identifier .integer, 10⟩ "é\n   let 5" "main.let").toList =
          rows.flatMap (· ++ ['\n']) ∧
        Report.PointsAt rows line token := by
  have oneRow : Report.IsRow "main.let" := by
    decide
  have mem : ⟨.unexpectedToken .identifier .integer, 10⟩ ∈ (parse "é\n   let 5").diagnostics := by
    decide +kernel
  exact ⟨oneRow, mem, report_pointsAt _ _ oneRow _ mem⟩

end Diagnostic

end LetLang
