import LetLang.Text.Bytes

/-!
# Lines and columns

**Input.** A text and a byte offset into it.

**Result.** `Line.at?`, the line on which the offset lies: its number from one, its text with the
line feed that ends it, and the column of the offset, which counts characters from zero.  An
offset at the very end of the text lies on the line after its last line feed.  There is no line
for an offset behind the end or inside a character.

The lines are gone over from the first one on, with the byte at which the next one starts and its
number, until one of them holds the offset.
-/

namespace LetLang
namespace Text

/-- The lines of a text, each with the line feed that ends it.  The last one may have none. -/
def lines : List Char → List (List Char)
  | [] => []
  | c :: cs =>
      if c = '\n' then [c] :: lines cs
      else
        match lines cs with
        | [] => [[c]]
        | line :: others => (c :: line) :: others

/-- A line of a text and a column on it. -/
structure Line where
  number : Nat
  text : List Char
  column : Nat
  deriving DecidableEq, Repr

namespace Line

/-- The place behind the last character, where `number` is one more than there are lines: the end of
the last line, or the beginning of one without characters if there is none or it is complete. -/
def pastEnd (number : Nat) : Option (List Char) → Line
  | some line =>
      if line.getLast? = some '\n' then ⟨number, [], 0⟩
      else ⟨number - 1, line, line.length⟩
  | none => ⟨number, [], 0⟩

/-- The first of some lines that holds the byte offset, where the lines start at a byte of the
content and are numbered on from `number`.  Behind the last of them is the end of the content. -/
def seek? (content : List Char) (offset : Nat) :
    (start number : Nat) → List (List Char) → Option Line
  | _, number, [] => some (pastEnd number (lines content).getLast?)
  | start, number, line :: others =>
      if start ≤ offset ∧ offset < start + byteLength line then
        (splitAtByte? (offset - start) line).map fun (front, _) => ⟨number, line, front.length⟩
      else
        seek? content offset (start + byteLength line) (number + 1) others

/-- The line that holds a byte offset of a text. -/
def at? (content : List Char) (offset : Nat) : Option Line :=
  if byteLength content < offset then none
  else seek? content offset 0 1 (lines content)

end Line

end Text
end LetLang
