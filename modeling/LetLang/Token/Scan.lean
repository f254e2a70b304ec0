import LetLang.Token.Lexeme
import LetLang.Text.Blank
import LetLang.Text.Bytes

/-!
# The tokens of a text

**Input.** A source text, or the rest of one with the byte offset at which it begins.

**Algorithm.** Blanks are skipped, the first lexeme behind them becomes a token that covers its
bytes, and the scan goes on with the text behind the lexeme.

**Result.** `tokenize`, all tokens of a text with the end of the input behind them.
-/

namespace LetLang
namespace Token

open Text

/-- The first token of a text that begins at a byte offset, and the text behind the token;
`none` when the text holds blanks only. -/
def next? (offset : Nat) (text : List Char) : Option (Token × List Char) :=
  let start := offset + byteLength (text.takeWhile isBlank)
  (Lexeme.first? (text.dropWhile isBlank)).map fun lexeme =>
    ({ kind := lexeme.kind
       literal := String.ofList lexeme.text
       span := ⟨start, start + byteLength lexeme.text⟩ },
      lexeme.rest)

/-- A token leaves less text behind it than there was. -/
theorem length_lt_of_next?
    {offset : Nat} {text rest : List Char} {token : Token}
    (h : next? offset text = some (token, rest)) :
    rest.length < text.length := by
  simp only [next?, Option.map_eq_some_iff] at h
  obtain ⟨lexeme, found, same⟩ := h
  cases same
  have shorter := Lexeme.length_rest_lt found
  have := (List.dropWhile_sublist (l := text) isBlank).length_le
  omega

/-- The tokens of a text that begins at a byte offset, without the end of the input. -/
def scan (offset : Nat) (text : List Char) : List Token :=
  match _found : next? offset text with
  | none => []
  | some (token, rest) => token :: scan token.stop rest
termination_by text.length
decreasing_by exact length_lt_of_next? _found

end Token

/-- All tokens of a source text, the last of which is the end of the input. -/
def tokenize (source : String) : List Token :=
  Token.scan 0 source.toList ++ [.endOfInput (Text.byteLength source.toList)]

end LetLang
