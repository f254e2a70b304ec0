import LetLang.Token.Scan

/-!
# Cursors

A cursor walks over a source text token by token, and may also be moved by a number of bytes.
Such a move can end inside a character.  There the cursor reads nothing: no character, no rest
of the text and no token, until a further move brings it to a boundary again.
-/

namespace LetLang

open Text

/-- A place in a source text: the offset of a character boundary, the text from there on, and how
many bytes of its first character lie behind the place. -/
structure Cursor where
  source : String
  offset : Nat
  rest : List Char
  inside : Nat
  deriving DecidableEq, Repr

namespace Cursor

/-- The place before the first character. -/
def ofSource (source : String) : Cursor :=
  { source, offset := 0, rest := source.toList, inside := 0 }

/-- Whether the whole text has been passed. -/
def atEnd (cursor : Cursor) : Bool :=
  cursor.rest.isEmpty

/-- Pass some bytes, but not more than there are. -/
def skip (count : Nat) (cursor : Cursor) : Cursor :=
  let (rest, inside) := skipBytes (cursor.inside + count) cursor.rest
  { cursor with
    offset := cursor.offset + (byteLength cursor.rest - byteLength rest)
    rest := rest
    inside := inside }

/-- The text that has not been passed; `none` inside a character. -/
def remainder? (cursor : Cursor) : Option (List Char) :=
  if cursor.inside = 0 then some cursor.rest else none

/-- The token at the cursor and the place behind it; `none` inside a character.  At the end of
the text every token is the end of the input. -/
def next? (cursor : Cursor) : Option (Token × Cursor) :=
  cursor.remainder?.map fun text =>
    match Token.next? cursor.offset text with
    | some (token, rest) =>
        (token, { cursor with offset := token.stop, rest := rest })
    | none =>
        let stop := cursor.offset + byteLength text
        (.endOfInput stop, { cursor with offset := stop, rest := [] })

end Cursor

end LetLang
