import LetLang.Text.Visible

/-!
# Quoted text

Messages show a literal of the source between double quotes, on one line and with nothing hidden:
the two marks `"` and `\` stand behind a backslash, the four controls that have a letter of their
own (`\n`, `\r`, `\t`, `\0`) are written with it, and every other character that is not visible
is written as its code point in hexadecimal, in braces behind `\u`.
-/

namespace LetLang
namespace Text
namespace Quoted

/-- The written form of one character. -/
def encodeChar (c : Char) : List Char :=
  if c = '"' then ['\\', '"']
  else if c = '\\' then ['\\', '\\']
  else if c = '\n' then ['\\', 'n']
  else if c = '\r' then ['\\', 'r']
  else if c = '\t' then ['\\', 't']
  else if c = '\x00' then ['\\', '0']
  else if isVisible c then [c]
  else ['\\', 'u', '\x7b'] ++ Nat.toDigits 16 c.toNat ++ ['\x7d']

/-- The text in double quotes. -/
def encode (text : String) : String :=
  String.ofList ('"' :: text.toList.flatMap encodeChar ++ ['"'])

end Quoted
end Text
end LetLang
