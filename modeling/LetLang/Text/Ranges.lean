/-!
# Ranges of code points

A class of characters is written down as a list of closed ranges of code points.  The ranges
are disjoint and increase along the list, so a search may stop at the first range that lies
wholly above the code point it looks for.

**Input.** A list of ranges and a character.

**Result.** `Ranges.contains`, which says whether one of the ranges holds the character.
-/

namespace LetLang
namespace Text

/-- A class of characters: disjoint closed ranges of code points, in increasing order. -/
abbrev Ranges := List (Nat × Nat)

namespace Ranges

/-- Whether a code point lies in one of the ranges. -/
def holds : Ranges → Nat → Bool
  | [], _ => false
  | (first, last) :: rest, point =>
      if point < first then false
      else if point ≤ last then true
      else holds rest point

/-- Whether a character lies in one of the ranges. -/
def contains (ranges : Ranges) (c : Char) : Bool :=
  holds ranges c.toNat

end Ranges

end Text
end LetLang
