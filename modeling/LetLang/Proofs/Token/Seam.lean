import LetLang.Proofs.Token.Longest

/-!
# Texts one behind the other

**Input.** A text, and another one behind it.

**Result.** `Token.scan_append`: the tokens of the whole are those of the first text with those of
the second behind them, unless the last token of the first goes on with the first character of the
second.  Which bytes stand before a text is of no account for its tokens but for the bytes that
they cover: `Token.scan_add` moves these.
-/

namespace LetLang

open Text

/-- A span whose ends have been moved. -/
def Span.relocate (place : Nat → Nat) (span : Span) : Span :=
  ⟨place span.start, place span.stop⟩

namespace Token

/-- A token whose bytes have been moved. -/
def relocate (place : Nat → Nat) (token : Token) : Token :=
  { token with span := token.span.relocate place }

section Relocate

variable (place : Nat → Nat) (token : Token)

@[simp] theorem kind_relocate :
    (token.relocate place).kind = token.kind :=
  rfl

@[simp] theorem literal_relocate :
    (token.relocate place).literal = token.literal :=
  rfl

@[simp] theorem start_relocate :
    (token.relocate place).start = place token.start :=
  rfl

@[simp] theorem stop_relocate :
    (token.relocate place).stop = place token.stop :=
  rfl

theorem relocate_endOfInput (offset : Nat) :
    (endOfInput offset).relocate place = endOfInput (place offset) :=
  rfl

end Relocate

section Scan

variable {offset : Nat} {text rest : List Char} {token : Token}

theorem next?_add (count offset : Nat) (text : List Char) :
    next? (count + offset) text =
      (next? offset text).map fun (token, rest) => (token.relocate (count + ·), rest) := by
  cases found : Lexeme.first? (text.dropWhile isBlank) with
  | none =>
      simp [next?, found]
  | some lexeme =>
      simp [next?, found, relocate, Span.relocate, Nat.add_assoc]

/-- A text that begins some bytes later has the same tokens, moved by these bytes. -/
theorem scan_add (count offset : Nat) (text : List Char) :
    scan (count + offset) text = (scan offset text).map (relocate (count + ·)) := by
  induction offset, text using scan.induct with
  | case1 offset text found =>
      have missing := next?_add count offset text
      rw [found] at missing
      rw [scan_of_next?_eq_none found, scan_of_next?_eq_none missing]
      rfl
  | case2 offset text first rest found ih =>
      have moved := next?_add count offset text
      rw [found] at moved
      rw [scan_of_next? found, scan_of_next? moved, List.map_cons, stop_relocate, ih]

theorem scan_zero_add (count : Nat) (text : List Char) :
    scan count text = (scan 0 text).map (relocate (count + ·)) :=
  scan_add count 0 text

/-- Where the last token of a text does not fuse with what is behind the text, both are scanned
apart. -/
theorem scan_append
    (apart : ∀ token ∈ (scan offset text).getLast?, token.stop = offset + byteLength text →
      ∀ c ∈ rest.head?, token.kind.fuses c = false) :
    scan offset (text ++ rest) = scan offset text ++ scan (offset + byteLength text) rest := by
  induction offset, text using scan.induct with
  | case1 offset text found =>
      rw [scan_of_next?_eq_none found, scan_blanks (blank_of_next?_eq_none found)]
      rfl
  | case2 offset text first behind found ih =>
      have ends := stop_of_next? found
      rw [scan_of_next? found] at apart ⊢
      have later : ∀ token ∈ (scan first.stop behind).getLast?,
          token.stop = first.stop + byteLength behind →
            ∀ c ∈ rest.head?, token.kind.fuses c = false := by
        intro token last stop
        refine apart token ?_ (by rw [stop, ends])
        rw [List.getLast?_cons, Option.mem_def.mp last]
        rfl
      obtain ⟨kind, blanks, piece, rfl, blank, occurs, same⟩ := exists_parts_of_next? found
      obtain ⟨spells, parted⟩ := occurs.spells
      have partedBehind : ∀ c ∈ (behind ++ rest).head?, kind.fuses c = false := by
        cases behind with
        | nil =>
            -- Only here does the text behind come next to the token.
            rw [← show first.kind = kind by rw [same]]
            refine apart first ?_ ends
            rw [scan_nil]
            rfl
        | cons d ds =>
            exact parted
      have spelled : Spelled kind piece := ⟨spells, occurs.notBlank⟩
      rw [List.append_assoc, List.append_assoc, scan_blanks blank, spelled.scan_append partedBehind,
        ← same, List.cons_append, ← ends, ← ih later, same]
      rfl

end Scan

end Token

end LetLang
