/-!
# Byte offsets in text

Positions in a source text count the bytes of its UTF-8 form, while the text itself is read as a
list of characters.  This module holds the passage between the two.

**Input.** A list of characters and a number of bytes.

**Results.** `byteLength`, the number of bytes the characters take; `splitAtByte?`, which divides
the text at an offset between two characters; and `skipBytes`, which also stops inside one.
-/

namespace LetLang
namespace Text

/-- The number of bytes that the characters take in UTF-8. -/
def byteLength : List Char → Nat
  | [] => 0
  | c :: cs => c.utf8Size + byteLength cs

@[simp] theorem byteLength_nil :
    byteLength [] = 0 := by
  rfl

@[simp] theorem byteLength_cons
    (c : Char) (cs : List Char) :
    byteLength (c :: cs) = c.utf8Size + byteLength cs := by
  rfl

@[simp] theorem byteLength_append
    (front back : List Char) :
    byteLength (front ++ back) =
      byteLength front + byteLength back := by
  induction front with
  | nil =>
      simp
  | cons c cs ih =>
      simp [ih, Nat.add_assoc]

/-- The text before a byte offset and the text from it on; `none` when the offset lies behind the
end of the text or inside a character. -/
def splitAtByte? : Nat → List Char → Option (List Char × List Char)
  | 0, text => some ([], text)
  | _ + 1, [] => none
  | offset, c :: cs =>
      if c.utf8Size ≤ offset then
        (splitAtByte? (offset - c.utf8Size) cs).map fun (front, back) =>
          (c :: front, back)
      else
        none

/-- What is left of the text once some bytes are passed, stopping at its end, and how many bytes
of its first character are among those passed. -/
def skipBytes : Nat → List Char → List Char × Nat
  | _, [] => ([], 0)
  | count, c :: cs =>
      if c.utf8Size ≤ count then skipBytes (count - c.utf8Size) cs
      else (c :: cs, count)

end Text
end LetLang
