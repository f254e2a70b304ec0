/-!
# Similarity of words

**Input.** Two words.

**Algorithm.** Each letter of the left word is paired with the first letter of the right word that
is equal, is not paired yet, and stands at about the same place: the places differ by less than
half the length of the longer word.  The paired letters of both words, read in order, need not
agree; two that disagree make one exchange.

**Result.** `Likeness.score`, from zero for words without a pair to one for equal words: the mean
of the part of the left word that is paired, the part of the right word that is paired, and the
part of the pairs that are not exchanged.
-/

namespace LetLang
namespace Text

/-- The letters of a word, each with a mark that says whether it is paired. -/
abbrev MarkedWord := List (Char × Bool)

namespace MarkedWord

/-- A word of which no letter is paired. -/
def ofWord (word : List Char) : MarkedWord :=
  word.map fun c => (c, false)

/-- The paired letters. -/
def paired (word : MarkedWord) : List Char :=
  (word.filter (·.2)).map (·.1)

/-- Pair the first letter that is `c`, is free, and has a place that is near; the list begins at
some place. -/
def pair? (c : Char) (near : Nat → Bool) : Nat → MarkedWord → Option MarkedWord
  | _, [] => none
  | place, (d, isPaired) :: rest =>
      if c = d && !isPaired && near place then some ((d, true) :: rest)
      else (pair? c near (place + 1) rest).map ((d, isPaired) :: ·)

end MarkedWord

/-- How far apart the places of two letters may be that are paired. -/
def reach (left right : List Char) : Nat :=
  max left.length right.length / 2 - 1

/-- The letters of the left word, from some place on, that find a partner, and the right word
with the partners marked. -/
def pairLetters (reach : Nat) : Nat → List Char → MarkedWord → List Char × MarkedWord
  | _, [], right => ([], right)
  | place, c :: left, right =>
      match right.pair? c (fun other => place ≤ other + reach && other ≤ place + reach) 0 with
      | none => pairLetters reach (place + 1) left right
      | some right =>
          let (found, right) := pairLetters reach (place + 1) left right
          (c :: found, right)

/-- What two words have in common. -/
structure Likeness where
  leftLength : Nat
  rightLength : Nat
  pairs : Nat
  exchanges : Nat
  deriving DecidableEq, Repr

namespace Likeness

/-- Compare two words. -/
def ofWords (left right : List Char) : Likeness :=
  let (found, right') := pairLetters (reach left right) 0 left (MarkedWord.ofWord right)
  { leftLength := left.length
    rightLength := right.length
    pairs := found.length
    exchanges := ((found.zip right'.paired).filter fun (c, d) => c ≠ d).length / 2 }

/-- A part of a whole. -/
def share (part whole : Nat) : Float :=
  part.toFloat / whole.toFloat

/-- The similarity of the words, a number from zero to one. -/
def score (likeness : Likeness) : Float :=
  if likeness.pairs = 0 then
    Float.ofNat 0
  else
    (share likeness.pairs likeness.leftLength
      + share likeness.pairs likeness.rightLength
      + share (likeness.pairs - likeness.exchanges) likeness.pairs) / Float.ofNat 3

end Likeness

/-- The choice whose word is most similar to a word, the last of several, if any of them has a
similarity of more than seven tenths. -/
def mostSimilar? {α : Type} (word : List Char) (choices : List (List Char × α)) : Option α :=
  (choices.foldl better none).map (·.2)
where
  /-- The better of two choices, where the first comes with its similarity. -/
  better (best : Option (Float × α)) (choice : List Char × α) : Option (Float × α) :=
    let score := (Likeness.ofWords word choice.1).score
    match best with
    | none => if score > 0.7 then some (score, choice.2) else none
    | some (highest, _) => if score ≥ highest then some (score, choice.2) else best

end Text
end LetLang
