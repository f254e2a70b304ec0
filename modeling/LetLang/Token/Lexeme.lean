import LetLang.Token.Basic
import LetLang.Text.Word
import LetLang.Text.Number

/-!
# Lexemes

**Input.** Source text that does not begin with a blank.

**Algorithm.** The first character decides.  An operator or a delimiter takes the name of its kind,
where one of two characters comes before one of one.  A word takes every word character that
follows, a number every number character, and then one point with the number characters behind it.
Any other character is a lexeme by itself.

**Result.** `Lexeme.first?`, the kind and the text of the first lexeme with the text behind it.
-/

namespace LetLang

/-- The first lexeme of a text and the text behind it. -/
structure Lexeme where
  kind : Kind
  text : List Char
  rest : List Char
  deriving DecidableEq, Repr

namespace Lexeme

open Text

/-- The kind of the operator or the delimiter at the front of the text. -/
def operatorKind? : List Char → Option Kind
  | '=' :: '=' :: _ => some .equal
  | '!' :: '=' :: _ => some .notEqual
  | '=' :: _ => some .assign
  | '!' :: _ => some .bang
  | '+' :: _ => some .plus
  | '-' :: _ => some .minus
  | '*' :: _ => some .star
  | '/' :: _ => some .slash
  | '<' :: _ => some .less
  | '>' :: _ => some .greater
  | ',' :: _ => some .comma
  | ';' :: _ => some .semicolon
  | '(' :: _ => some .openParen
  | ')' :: _ => some .closeParen
  | '\x7b' :: _ => some .openBrace
  | '\x7d' :: _ => some .closeBrace
  | _ => none

/-- An operator or a delimiter at the front of the text.  It takes the name of its kind. -/
def operator? (text : List Char) : Option Lexeme :=
  (operatorKind? text).map fun kind =>
    { kind := kind
      text := kind.name.toList
      rest := text.drop kind.name.toList.length }

/-- The word characters at the front of the text, as a name or a reserved word. -/
def word (text : List Char) : Lexeme :=
  let letters := text.takeWhile isWord
  { kind := .ofWord (String.ofList letters)
    text := letters
    rest := text.dropWhile isWord }

/-- The number at the front of the text: an integer, or a float if a point follows its digits. -/
def number (text : List Char) : Lexeme :=
  let digits := text.takeWhile isNumber
  match text.dropWhile isNumber with
  | '.' :: cs =>
      { kind := .float
        text := digits ++ '.' :: cs.takeWhile isNumber
        rest := cs.dropWhile isNumber }
  | cs =>
      { kind := .integer
        text := digits
        rest := cs }

/-- The first lexeme of a text, which has one unless it is empty. -/
def first? : List Char → Option Lexeme
  | [] => none
  | c :: cs =>
      match operator? (c :: cs) with
      | some lexeme => some lexeme
      | none =>
          if isWord c then some (word (c :: cs))
          else if isNumber c then some (number (c :: cs))
          else some ⟨.illegal, [c], cs⟩

/-- An operator is followed by less text than it was found in. -/
theorem length_rest_lt_of_operator?
    {text : List Char} {lexeme : Lexeme}
    (h : operator? text = some lexeme) :
    lexeme.rest.length < text.length := by
  obtain ⟨kind, found, rfl⟩ := Option.map_eq_some_iff.mp h
  have name := List.length_pos_iff.mpr kind.toList_name_ne_nil
  cases text with
  | nil =>
      cases found
  | cons c cs =>
      rw [List.length_drop, List.length_cons]
      omega

/-- A lexeme is followed by less text than it was found in. -/
theorem length_rest_lt
    {text : List Char} {lexeme : Lexeme}
    (h : first? text = some lexeme) :
    lexeme.rest.length < text.length := by
  cases text with
  | nil =>
      simp [first?] at h
  | cons c cs =>
      have drop_le (p : Char → Bool) (l : List Char) :
          (l.dropWhile p).length ≤ l.length :=
        (List.dropWhile_sublist p).length_le
      simp only [first?] at h
      split at h
      · rename_i found
        cases h
        exact length_rest_lt_of_operator? found
      · split at h
        · rename_i isWordChar
          cases h
          have := drop_le isWord cs
          simp [word, isWordChar]
          omega
        · split at h
          · rename_i isNumberChar
            cases h
            have whole := drop_le isNumber cs
            simp only [number, List.dropWhile_cons, isNumberChar, if_true]
            split
            · rename_i ds found
              have behind := drop_le isNumber ds
              rw [found] at whole
              simp at whole ⊢
              omega
            · simp
              omega
          · cases h
            simp

end Lexeme

end LetLang
