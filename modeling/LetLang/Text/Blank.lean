import LetLang.Text.Ranges

/-!
# Blank characters

The characters that may stand between two tokens: those with the Unicode property White_Space,
in version 16.0 of the standard.
-/

namespace LetLang
namespace Text

/-- The code points with the property White_Space. -/
def blankRanges : Ranges :=
  [
    (0x9, 0xD), (0x20, 0x20), (0x85, 0x85), (0xA0, 0xA0), (0x1680, 0x1680), (0x2000, 0x200A),
    (0x2028, 0x2029), (0x202F, 0x202F), (0x205F, 0x205F), (0x3000, 0x3000)
  ]

/-- A character that separates tokens and belongs to none. -/
def isBlank (c : Char) : Bool :=
  blankRanges.contains c

end Text
end LetLang
