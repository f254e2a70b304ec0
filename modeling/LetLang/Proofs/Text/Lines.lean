import LetLang.Proofs.Token.Lossless
import LetLang.Text.Line
import Mathlib.Data.List.DropRight

/-!
# Lines and byte offsets

**Input.** A text and a byte offset into it.

**Result.** `Line.at?_inverts_offsets`: the line of an offset is found exactly if the offset lies
between two characters of the text.  The number counts the line feeds before the offset, the text is
the line of this number, and the bytes of the lines before it together with those of the characters
in front of the column are the offset again.

The module begins with the lines of a text and with its cut behind the last line feed: what stands
before the cut are whole lines, as many as there are line feeds, and what stands behind it begins
the line that the offset is on.  `Line.at?` passes the whole lines and stops at the next one, or
behind all of them at the end of the text, which `Line.at?_eq` says in terms of what is on either
side of the offset.
-/

namespace LetLang
namespace Text

section Lines

variable {front back text : List Char}

/-- The characters after the last line feed. -/
def Line.unfinished (text : List Char) : List Char :=
  (text.reverse.takeWhile (· ≠ '\n')).reverse

/-- The characters up to the first line feed, with it. -/
def Line.throughFeed : List Char → List Char
  | [] => []
  | c :: cs => if c = '\n' then [c] else c :: throughFeed cs

/-- The text is empty or ends with a line feed, so that the next character begins a line. -/
def EndsLine (text : List Char) : Prop :=
  ∀ c ∈ text.getLast?, c = '\n'

@[simp] theorem lines_nil :
    lines [] = [] := by
  rfl

theorem lines_feed (cs : List Char) :
    lines ('\n' :: cs) = ['\n'] :: lines cs := by
  rfl

theorem lines_cons {c : Char} (other : c ≠ '\n') (cs : List Char) :
    lines (c :: cs) = (c :: (lines cs).headD []) :: (lines cs).tail := by
  rw [lines, if_neg other]
  cases lines cs <;> rfl

/-- A text has a first line unless it is empty: what stands before its end or its first line feed,
with the line feed. -/
theorem lines_eq_cons (h : text ≠ []) :
    lines text =
      Line.throughFeed text :: lines (text.drop (Line.throughFeed text).length) := by
  induction text with
  | nil =>
      exact absurd rfl h
  | cons c cs ih =>
      by_cases feed : c = '\n'
      · subst feed
        simp [lines_feed, Line.throughFeed]
      · rw [lines_cons feed]
        cases cs with
        | nil =>
            simp [Line.throughFeed, feed]
        | cons d ds =>
            rw [ih (List.cons_ne_nil d ds)]
            simp [Line.throughFeed, feed]

@[simp] theorem lines_eq_nil_iff :
    lines text = [] ↔ text = [] := by
  cases text with
  | nil =>
      simp
  | cons c cs =>
      simp [lines_eq_cons]

/-- The first line of a text is what a line that has been begun goes on with. -/
theorem headD_lines (text : List Char) :
    (lines text).headD [] = Line.throughFeed text := by
  cases text with
  | nil =>
      rfl
  | cons c cs =>
      rw [lines_eq_cons (List.cons_ne_nil c cs)]
      rfl

/-- The lines of a text are the text. -/
theorem flatten_lines (text : List Char) :
    (lines text).flatten = text := by
  induction text with
  | nil =>
      rfl
  | cons c cs ih =>
      by_cases feed : c = '\n'
      · subst feed
        rw [lines_feed, List.flatten_cons, ih]
        rfl
      · rw [lines_cons feed]
        cases whole : lines cs with
        | nil =>
            rw [whole] at ih
            simpa using ih
        | cons line others =>
            rw [whole] at ih
            simpa using ih

theorem ne_nil_of_mem_lines {line : List Char} (mem : line ∈ lines text) :
    line ≠ [] := by
  induction text generalizing line with
  | nil =>
      cases mem
  | cons c cs ih =>
      by_cases feed : c = '\n'
      · subst feed
        rw [lines_feed, List.mem_cons] at mem
        rcases mem with rfl | mem
        · exact List.cons_ne_nil _ _
        · exact ih mem
      · rw [lines_cons feed, List.mem_cons] at mem
        rcases mem with rfl | mem
        · exact List.cons_ne_nil _ _
        · exact ih (List.mem_of_mem_tail mem)

/-- The last line ends as the text does. -/
theorem getLast?_of_getLast?_lines {line : List Char} (last : (lines text).getLast? = some line) :
    line.getLast? = text.getLast? := by
  obtain ⟨others, whole⟩ := List.getLast?_eq_some_iff.mp last
  have more : line ≠ [] := ne_nil_of_mem_lines (List.mem_of_getLast? last)
  rw [← flatten_lines text, whole, List.flatten_append, List.flatten_singleton,
    List.getLast?_append_of_ne_nil _ more]

theorem EndsLine.tail {c : Char} {cs : List Char} (h : EndsLine (c :: cs)) :
    EndsLine cs := by
  intro last mem
  apply h
  rw [List.getLast?_cons]
  cases cs with
  | nil =>
      cases mem
  | cons d ds =>
      rw [Option.mem_def] at mem ⊢
      rw [mem]
      rfl

/-- Only a line feed ends a line by itself. -/
theorem EndsLine.ne_nil {c : Char} {cs : List Char} (h : EndsLine (c :: cs)) (other : c ≠ '\n') :
    cs ≠ [] := by
  rintro rfl
  exact other (h c rfl)

theorem EndsLine.exists_lines_eq_cons {c : Char} {cs : List Char} (h : EndsLine (c :: cs))
    (other : c ≠ '\n') :
    ∃ line others, lines cs = line :: others :=
  List.exists_cons_of_ne_nil (mt lines_eq_nil_iff.mp (h.ne_nil other))

/-- Behind whole lines the lines are those of what is left. -/
theorem lines_append (h : EndsLine front) :
    lines (front ++ back) = lines front ++ lines back := by
  induction front with
  | nil =>
      rfl
  | cons c cs ih =>
      rw [List.cons_append]
      by_cases feed : c = '\n'
      · subst feed
        rw [lines_feed, lines_feed, ih h.tail, List.cons_append]
      · rw [lines_cons feed, lines_cons feed, ih h.tail]
        obtain ⟨line, others, whole⟩ := h.exists_lines_eq_cons feed
        rw [whole]
        rfl

/-- There are as many whole lines as there are line feeds. -/
theorem length_lines (h : EndsLine front) :
    (lines front).length = front.count '\n' := by
  induction front with
  | nil =>
      rfl
  | cons c cs ih =>
      by_cases feed : c = '\n'
      · subst feed
        rw [lines_feed, List.length_cons, ih h.tail, List.count_cons_self]
      · obtain ⟨line, others, whole⟩ := h.exists_lines_eq_cons feed
        rw [List.count_cons_of_ne feed, ← ih h.tail, lines_cons feed, whole]
        rfl

end Lines

section Cut

variable {whole before after opened : List Char}

/-- A line that has been begun goes on up to the next line feed. -/
theorem throughFeed_append (h : '\n' ∉ opened) :
    Line.throughFeed (opened ++ after) = opened ++ Line.throughFeed after := by
  induction opened with
  | nil =>
      rfl
  | cons c cs ih =>
      rw [List.mem_cons, not_or] at h
      rw [List.cons_append, Line.throughFeed, if_neg (Ne.symm h.1), ih h.2, List.cons_append]

/-- A line goes on with the character that it has come to. -/
theorem head?_throughFeed (after : List Char) :
    (Line.throughFeed after).head? = after.head? := by
  cases after with
  | nil =>
      rfl
  | cons c cs =>
      rw [Line.throughFeed]
      split <;> rfl

theorem throughFeed_ne_nil (h : after ≠ []) :
    Line.throughFeed after ≠ [] := by
  rw [Ne, ← List.head?_eq_none_iff, head?_throughFeed, List.head?_eq_none_iff]
  exact h

/-- Only the end of a line is a line feed. -/
theorem feed_not_mem_dropLast (h : '\n' ∉ opened) (after : List Char) :
    '\n' ∉ (opened ++ Line.throughFeed after).dropLast := by
  have behind : '\n' ∉ (Line.throughFeed after).dropLast := by
    induction after with
    | nil =>
        simp [Line.throughFeed]
    | cons c cs ih =>
        rw [Line.throughFeed]
        split
        · simp
        · rename_i other
          cases more : Line.throughFeed cs with
          | nil =>
              simp
          | cons d ds =>
              rw [more] at ih
              rw [List.dropLast_cons_cons, List.mem_cons, not_or]
              exact ⟨Ne.symm other, ih⟩
  cases noMore : Line.throughFeed after with
  | nil =>
      rw [List.append_nil]
      exact fun mem => h (List.dropLast_subset opened mem)
  | cons c cs =>
      rw [noMore] at behind
      rw [List.dropLast_append_of_ne_nil (List.cons_ne_nil c cs), List.mem_append, not_or]
      exact ⟨h, behind⟩

/-- Behind whole lines the next line has the number of the line feeds passed. -/
theorem getElem?_lines_append (ends : EndsLine whole) :
    (lines (whole ++ after))[whole.count '\n']? = (lines after).head? := by
  rw [lines_append ends, ← length_lines ends, List.getElem?_append_right (Nat.le_refl _),
    Nat.sub_self, List.head?_eq_getElem?]

theorem take_lines_append (ends : EndsLine whole) :
    ((lines (whole ++ after)).take (whole.count '\n')).flatten = whole := by
  rw [lines_append ends, ← length_lines ends, List.take_left, flatten_lines]

/-- A line that has been begun is no whole line. -/
theorem EndsLine.eq_nil (noFeed : '\n' ∉ opened) (h : EndsLine (whole ++ opened)) :
    opened = [] := by
  rw [← List.getLast?_eq_none_iff, Option.eq_none_iff_forall_not_mem]
  intro c last
  have feed : c = '\n' := h c (by rw [List.getLast?_append, Option.mem_def.mp last]; rfl)
  exact noFeed (feed ▸ List.mem_of_getLast? last)

/-- What is left of a text, when a run of characters behind it is dropped, ends with another one. -/
theorem parted_of_rdropWhile (p : Char → Bool) (text : List Char) :
    ∀ c ∈ (text.rdropWhile p).getLast?, p c = false := by
  intro c last
  rw [List.rdropWhile, List.getLast?_reverse] at last
  exact Lexeme.parted_of_dropWhile p text.reverse c last

/-- Every text is cut behind its last line feed, into whole lines and the beginning of one. -/
theorem exists_wholeLines (before : List Char) :
    ∃ whole, before = whole ++ Line.unfinished before ∧ EndsLine whole ∧
      '\n' ∉ Line.unfinished before := by
  refine ⟨before.rdropWhile (· ≠ '\n'), List.rdropWhile_append_rtakeWhile.symm, ?_, ?_⟩
  · intro c last
    simpa using parted_of_rdropWhile (· ≠ '\n') before c last
  · intro mem
    simpa using List.mem_rtakeWhile_imp mem

end Cut

section Bytes

variable {offset : Nat} {text before after : List Char}

/-- A text is divided at an offset exactly if its front has as many bytes. -/
theorem splitAtByte?_eq_some_iff :
    splitAtByte? offset text = some (before, after) ↔
      text = before ++ after ∧ byteLength before = offset := by
  constructor
  · intro found
    induction text generalizing offset before with
    | nil =>
        cases offset with
        | zero =>
            cases found
            exact ⟨rfl, rfl⟩
        | succ offset =>
            cases found
    | cons c cs ih =>
        cases offset with
        | zero =>
            cases found
            exact ⟨rfl, rfl⟩
        | succ offset =>
            simp only [splitAtByte?] at found
            split at found
            · rename_i fits
              rw [Option.map_eq_some_iff] at found
              obtain ⟨⟨front, back⟩, divided, same⟩ := found
              cases same
              obtain ⟨whole, size⟩ := ih divided
              refine ⟨by rw [whole]; rfl, ?_⟩
              rw [byteLength_cons, size]
              omega
            · cases found
  · rintro ⟨rfl, rfl⟩
    exact splitAtByte?_append before after

/-- A piece of a text stands between what is before its first byte and what is behind its last. -/
theorem exists_of_slice? {span : Span} {piece : List Char} (h : slice? span text = some piece) :
    ∃ before behind, text = before ++ (piece ++ behind) ∧ byteLength before = span.start ∧
      byteLength piece = span.stop - span.start := by
  rw [slice?, Option.bind_eq_bind, Option.bind_eq_some_iff] at h
  obtain ⟨⟨before, back⟩, divided, h⟩ := h
  obtain ⟨⟨front, behind⟩, divided', same⟩ := Option.bind_eq_some_iff.mp h
  cases same
  obtain ⟨rfl, size⟩ := splitAtByte?_eq_some_iff.mp divided
  obtain ⟨rfl, size'⟩ := splitAtByte?_eq_some_iff.mp divided'
  exact ⟨before, behind, rfl, size, size'⟩

/-- An offset lies between two characters of a text if the text is divided there. -/
theorem isValid_iff_splitAtByte? {content : String} :
    (String.Pos.Raw.mk offset).IsValid content ↔
      ∃ before after, splitAtByte? offset content.toList = some (before, after) := by
  rw [String.Pos.Raw.isValid_iff_exists_append]
  constructor
  · rintro ⟨front, back, rfl, same⟩
    refine ⟨front.toList, back.toList, splitAtByte?_eq_some_iff.mpr ⟨String.toList_append, ?_⟩⟩
    rw [byteLength_toList]
    exact congrArg String.Pos.Raw.byteIdx same.symm
  · rintro ⟨before, after, found⟩
    obtain ⟨whole, size⟩ := splitAtByte?_eq_some_iff.mp found
    refine ⟨String.ofList before, String.ofList after, ?_, ?_⟩
    · rw [← String.ofList_append, ← whole, String.ofList_toList]
    · have bytes := byteLength_toList (String.ofList before)
      rw [String.toList_ofList, size] at bytes
      exact congrArg String.Pos.Raw.mk bytes

/-- The byte of a line feed occurs in the form of no other character. -/
theorem not_mem_utf8EncodeChar {c : Char} (other : c ≠ '\n') :
    10 ∉ String.utf8EncodeChar c := by
  have point : c.val.toNat ≠ 10 := fun same => other (Char.ext (UInt32.toNat_inj.mp same))
  have byte {n : Nat} (same : (10 : UInt8) = UInt8.ofNat n) : n % 256 = 10 :=
    (congrArg UInt8.toNat same).symm
  intro mem
  simp only [String.utf8EncodeChar] at mem
  -- The only byte below 128 is that of a character of one byte, which is its code point.
  split at mem
  · have := byte (List.mem_singleton.mp mem)
    omega
  · split at mem
    · simp only [List.mem_cons, List.not_mem_nil, or_false] at mem
      rcases mem with same | same <;> have := byte same <;> omega
    · split at mem
      · simp only [List.mem_cons, List.not_mem_nil, or_false] at mem
        rcases mem with same | same | same <;> have := byte same <;> omega
      · simp only [List.mem_cons, List.not_mem_nil, or_false] at mem
        rcases mem with same | same | same | same <;> have := byte same <;> omega

/-- There are as many bytes of line feeds as there are line feeds. -/
theorem count_flatMap_utf8EncodeChar (text : List Char) :
    (text.flatMap String.utf8EncodeChar).count 10 = text.count '\n' := by
  induction text with
  | nil =>
      rfl
  | cons c cs ih =>
      rw [List.flatMap_cons, List.count_append, ih]
      by_cases feed : c = '\n'
      · subst feed
        rw [List.count_cons_self, Nat.add_comm]
        rfl
      · rw [List.count_eq_zero.mpr (not_mem_utf8EncodeChar feed), List.count_cons_of_ne feed,
          Nat.zero_add]

theorem length_flatMap_utf8EncodeChar (text : List Char) :
    (text.flatMap String.utf8EncodeChar).length = byteLength text := by
  induction text with
  | nil =>
      rfl
  | cons c cs ih =>
      rw [List.flatMap_cons, List.length_append, ih, String.length_utf8EncodeChar, byteLength_cons]

/-- The first bytes of a text are those of its first characters. -/
theorem take_toByteArray {content : String} (whole : content.toList = before ++ after) :
    content.toByteArray.data.toList.take (byteLength before) =
      before.flatMap String.utf8EncodeChar := by
  have bytes : content.toByteArray.data.toList = content.toList.flatMap String.utf8EncodeChar := by
    rw [← String.utf8Encode_toList, List.utf8Encode, List.data_toByteArray]
  rw [bytes, whole, List.flatMap_append, ← length_flatMap_utf8EncodeChar, List.take_left]

end Bytes

namespace Line

section Seek

variable {content opened after whole : List Char} {offset start number : Nat} {line : Line}
  {front rest : List (List Char)}

/-- Lines that end at the offset or before it are passed. -/
theorem seek?_append (passed : start + byteLength front.flatten ≤ offset) :
    seek? content offset start number (front ++ rest) =
      seek? content offset (start + byteLength front.flatten) (number + front.length) rest := by
  induction front generalizing start number with
  | nil =>
      rfl
  | cons line others ih =>
      rw [List.flatten_cons, byteLength_append, ← Nat.add_assoc] at passed
      have behind : ¬ (start ≤ offset ∧ offset < start + byteLength line) := by
        omega
      rw [List.cons_append, seek?, if_neg behind, ih passed, List.flatten_cons, byteLength_append,
        List.length_cons, Nat.add_assoc, Nat.add_assoc, Nat.add_comm 1]

/-- The search stops at the first line that goes on behind the offset. -/
theorem seek?_cons_append (more : after ≠ []) :
    seek? content (start + byteLength opened) start number ((opened ++ after) :: rest) =
      some ⟨number, opened ++ after, opened.length⟩ := by
  have holds : start ≤ start + byteLength opened ∧
      start + byteLength opened < start + byteLength (opened ++ after) := by
    have := byteLength_pos more
    rw [byteLength_append]
    omega
  rw [seek?, if_pos holds, Nat.add_sub_cancel_left, splitAtByte?_append]
  rfl

/-- There is no line behind complete ones, so that the end of the text begins one. -/
theorem pastEnd_of_endsLine (ends : EndsLine content) :
    pastEnd number (lines content).getLast? = ⟨number, [], 0⟩ := by
  cases last : (lines content).getLast? with
  | none =>
      rfl
  | some line =>
      have same := getLast?_of_getLast?_lines last
      have more : line ≠ [] := ne_nil_of_mem_lines (List.mem_of_getLast? last)
      have feed : line.getLast? = some '\n' := by
        rw [List.getLast?_eq_some_getLast more] at same ⊢
        rw [ends _ same.symm]
      rw [pastEnd, if_pos feed]

/-- Behind whole lines the end of the text is on the line that has been begun. -/
theorem seek?_lines_of_noFeed (ends : EndsLine whole) (noFeed : '\n' ∉ opened) :
    seek? (whole ++ opened) (byteLength whole + byteLength opened) (byteLength whole) number
        (lines opened) =
      some ⟨number, opened, opened.length⟩ := by
  cases opened with
  | nil =>
      rw [List.append_nil, lines_nil, seek?, pastEnd_of_endsLine ends]
      rfl
  | cons c cs =>
      have one : lines (c :: cs) = [c :: cs] := by
        have all := @throughFeed_append [] _ noFeed
        rw [Line.throughFeed, List.append_nil] at all
        rw [lines_eq_cons (List.cons_ne_nil c cs), all, List.drop_length, lines_nil]
      have unended : (c :: cs).getLast? ≠ some '\n' := fun last =>
        noFeed (List.mem_of_getLast? last)
      rw [one, seek?, if_neg (by omega), seek?, lines_append ends, one, List.getLast?_concat,
        pastEnd, if_neg unended, Nat.add_sub_cancel]

/-- An offset for which the lines hold a place divides them. -/
theorem exists_append_of_seek? (found : seek? content offset start number rest = some line)
    (low : start ≤ offset) (high : offset ≤ start + byteLength rest.flatten) :
    ∃ before after, rest.flatten = before ++ after ∧ start + byteLength before = offset := by
  induction rest generalizing start number with
  | nil =>
      exact ⟨[], [], rfl, Nat.le_antisymm low high⟩
  | cons first others ih =>
      rw [List.flatten_cons, byteLength_append, ← Nat.add_assoc] at high
      rw [seek?] at found
      split at found
      · obtain ⟨⟨before, after⟩, divided, -⟩ := Option.map_eq_some_iff.mp found
        obtain ⟨rfl, size⟩ := splitAtByte?_eq_some_iff.mp divided
        exact ⟨before, after ++ others.flatten, by rw [List.flatten_cons, List.append_assoc], by
          omega⟩
      · obtain ⟨before, after, whole, size⟩ := ih found (by omega) high
        refine ⟨first ++ before, after, ?_, ?_⟩
        · rw [List.flatten_cons, whole, List.append_assoc]
        · rw [byteLength_append, ← Nat.add_assoc, size]

end Seek

section Inversion

variable {content : List Char} {offset : Nat} {line : Line}

/-- The line of an offset is made of what is on either side of it. -/
theorem at?_append (before after : List Char) :
    at? (before ++ after) (byteLength before) =
      some ⟨before.count '\n' + 1, unfinished before ++ throughFeed after,
        (unfinished before).length⟩ := by
  obtain ⟨whole, cut, ends, noFeed⟩ := exists_wholeLines before
  generalize unfinished before = opened at cut noFeed
  subst cut
  have passed : 0 + byteLength (lines whole).flatten ≤ byteLength (whole ++ opened) := by
    rw [flatten_lines, byteLength_append]
    omega
  rw [at?, if_neg (by rw [byteLength_append]; omega), List.append_assoc, lines_append ends,
    seek?_append passed, flatten_lines, length_lines ends, Nat.zero_add, byteLength_append,
    List.count_append, List.count_eq_zero.mpr noFeed, Nat.add_zero, Nat.add_comm 1]
  cases after with
  | nil =>
      rw [List.append_nil, throughFeed, List.append_nil]
      exact seek?_lines_of_noFeed ends noFeed
  | cons c cs =>
      rw [lines_eq_cons (List.append_ne_nil_of_right_ne_nil opened (List.cons_ne_nil c cs)),
        throughFeed_append noFeed]
      exact seek?_cons_append (throughFeed_ne_nil (List.cons_ne_nil c cs))

/-- The loop over the lines finds what the text on either side of the offset says, and nothing for
an offset that does not divide the text. -/
theorem at?_eq (content : List Char) (offset : Nat) :
    at? content offset =
      (splitAtByte? offset content).map fun cut =>
        ⟨cut.1.count '\n' + 1, unfinished cut.1 ++ throughFeed cut.2,
          (unfinished cut.1).length⟩ := by
  cases divided : splitAtByte? offset content with
  | some cut =>
      obtain ⟨rfl, rfl⟩ := splitAtByte?_eq_some_iff.mp divided
      exact at?_append cut.1 cut.2
  | none =>
      rw [Option.map_none, Option.eq_none_iff_forall_ne_some]
      intro line found
      rw [at?] at found
      split at found
      · cases found
      · rename_i inside
        have within : offset ≤ 0 + byteLength (lines content).flatten := by
          rw [flatten_lines]
          omega
        obtain ⟨before, after, whole, size⟩ :=
          exists_append_of_seek? found (Nat.zero_le offset) within
        rw [flatten_lines] at whole
        rw [Nat.zero_add] at size
        rw [splitAtByte?_eq_some_iff.mpr ⟨whole, size⟩] at divided
        cases divided

/-- Where a line is found, the text is cut behind the last line feed before the offset, and at the
offset. -/
theorem exists_of_at? (h : at? content offset = some line) :
    ∃ whole opened after, content = whole ++ (opened ++ after) ∧
      EndsLine whole ∧ '\n' ∉ opened ∧ byteLength whole + byteLength opened = offset ∧
      line = ⟨whole.count '\n' + 1, opened ++ throughFeed after, opened.length⟩ := by
  rw [at?_eq, Option.map_eq_some_iff] at h
  obtain ⟨⟨before, after⟩, found, rfl⟩ := h
  obtain ⟨rfl, rfl⟩ := splitAtByte?_eq_some_iff.mp found
  obtain ⟨whole, cut, ends, noFeed⟩ := exists_wholeLines before
  have count : before.count '\n' = whole.count '\n' := by
    have both := congrArg (List.count '\n') cut
    rwa [List.count_append, List.count_eq_zero.mpr noFeed] at both
  refine ⟨whole, unfinished before, after, ?_, ends, noFeed, ?_, ?_⟩
  · rw [← List.append_assoc, ← cut]
  · rw [← byteLength_append, ← cut]
  · rw [← count]

end Inversion

/-- What a line has to be in order to be the one that a byte offset of a text is on: its number
counts the bytes of line feeds before the offset, its text is the line of this number, and its
column counts the characters from the beginning of the line to the offset.  Only at the end of a
text that is empty or ends with a line feed there is no line of the number; its text is empty then.
-/
structure IsAt (line : Line) (content : String) (offset : Nat) : Prop where
  number : line.number = 1 + (content.toByteArray.data.toList.take offset).count 10
  text : (lines content.toList)[line.number - 1]?.getD [] = line.text
  beyond : (lines content.toList)[line.number - 1]? = none ↔
    offset = content.utf8ByteSize ∧ EndsLine content.toList
  column : ∃ piece,
    slice? ⟨byteLength ((lines content.toList).take (line.number - 1)).flatten, offset⟩
        content.toList = some piece ∧ piece.length = line.column
  offset : byteLength ((lines content.toList).take (line.number - 1)).flatten +
    byteLength (line.text.take line.column) = offset

theorem isAt_of_at? {content : String} {offset : Nat} {line : Line}
    (h : at? content.toList offset = some line) :
    line.IsAt content offset := by
  obtain ⟨whole, opened, after, cut, ends, noFeed, size, rfl⟩ := exists_of_at? h
  have before : content.toList = whole ++ opened ++ after := by
    rw [cut, List.append_assoc]
  have found : (lines content.toList)[whole.count '\n']? = (lines (opened ++ after)).head? := by
    rw [cut, getElem?_lines_append ends]
  have passed : ((lines content.toList).take (whole.count '\n')).flatten = whole := by
    rw [cut, take_lines_append ends]
  constructor
  case number =>
    have feeds := count_flatMap_utf8EncodeChar (whole ++ opened)
    rw [← take_toByteArray before, byteLength_append, size, List.count_append,
      List.count_eq_zero.mpr noFeed] at feeds
    rw [feeds, Nat.add_comm]
    rfl
  case text =>
    show (lines content.toList)[whole.count '\n']?.getD [] = opened ++ throughFeed after
    rw [found, ← List.headD_eq_head?_getD, headD_lines, throughFeed_append noFeed]
  case beyond =>
    show (lines content.toList)[whole.count '\n']? = none ↔ _
    have bytes : content.utf8ByteSize = offset + byteLength after := by
      rw [← byteLength_toList, before, byteLength_append, byteLength_append, size]
    rw [found, List.head?_eq_none_iff, lines_eq_nil_iff, List.append_eq_nil_iff, bytes, before]
    constructor
    · rintro ⟨rfl, rfl⟩
      rw [List.append_nil, List.append_nil]
      exact ⟨rfl, ends⟩
    · rintro ⟨atEnd, last⟩
      cases after with
      | nil =>
          rw [List.append_nil] at last
          exact ⟨last.eq_nil noFeed, rfl⟩
      | cons c cs =>
          have := byteLength_pos (List.cons_ne_nil c cs)
          omega
  case column =>
    refine ⟨opened, ?_, rfl⟩
    show slice? ⟨byteLength ((lines content.toList).take (whole.count '\n')).flatten, offset⟩
      content.toList = some opened
    rw [passed, ← size, cut]
    exact slice?_append whole opened after
  case offset =>
    show byteLength ((lines content.toList).take (whole.count '\n')).flatten +
      byteLength ((opened ++ throughFeed after).take opened.length) = offset
    rw [passed, List.take_left, size]

/-- There is no line behind the end of a text, or for an offset inside a character. -/
theorem at?_eq_none_iff {content : String} {offset : Nat} :
    at? content.toList offset = none ↔
      content.utf8ByteSize < offset ∨ ¬ (String.Pos.Raw.mk offset).IsValid content := by
  have divided : at? content.toList offset = none ↔
      ¬ (String.Pos.Raw.mk offset).IsValid content := by
    rw [at?_eq, Option.map_eq_none_iff, isValid_iff_splitAtByte?, Option.eq_none_iff_forall_ne_some]
    simp
  rw [divided]
  constructor
  · exact .inr
  · rintro (behind | invalid) valid
    · have within : offset ≤ content.utf8ByteSize := valid.le_rawEndPos
      omega
    · exact invalid valid

/-- A line is found for an offset exactly if the offset is in the text and between two characters.
It is the line that the offset is on, and its number and the column give the offset back, so that no
other offset has both of them. -/
theorem at?_inverts_offsets (content : String) :
    (∀ offset, at? content.toList offset = none ↔
      content.utf8ByteSize < offset ∨ ¬ (String.Pos.Raw.mk offset).IsValid content) ∧
    (∀ offset line, at? content.toList offset = some line → line.IsAt content offset) ∧
    ∀ offset offset' line line',
      at? content.toList offset = some line → at? content.toList offset' = some line' →
        line.number = line'.number → line.column = line'.column → offset = offset' := by
  refine ⟨fun _ => at?_eq_none_iff, fun _ _ => isAt_of_at?, ?_⟩
  intro offset offset' line line' found found' number column
  have here := isAt_of_at? found
  have there := isAt_of_at? found'
  rw [← here.offset, ← there.offset, ← here.text, ← there.text, number, column]

/-- Behind the last line feed of a text there is a line without characters. -/
example : at? "ab\n".toList 3 = some ⟨2, [], 0⟩ := by
  decide

end Line

end Text
end LetLang
