import LetLang.Text.Blank
import LetLang.Text.Number
import LetLang.Text.Word

/-!
# Classes of characters are apart

A blank, a word character and a number character are never the same character.  The tables of the
classes are long, so this is decided in one pass along two of them, which relies on the order of
their ranges: where a range of the one table is reached, the ranges of the other that end before
it are left behind for good, and the first one that is not has to begin behind it.
-/

namespace LetLang
namespace Text

namespace Ranges

/-- Whether the ranges increase, all of them from a code point on. -/
def ascend : Nat → Ranges → Bool
  | _, [] => true
  | low, (first, last) :: rest => low ≤ first && first ≤ last && ascend (last + 1) rest

/-- Whether no range of one table meets a range of the other, both of them increasing. -/
def areApart : Ranges → Ranges → Bool
  | [], _ => true
  | (first, last) :: rest, others =>
      let left := others.dropWhile fun other => other.2 < first
      left.head?.all (fun other => last < other.1) && areApart rest left

variable {ranges others : Ranges} {low : Nat}

/-- A code point that is found lies in one of the ranges, whatever their order is. -/
theorem exists_of_holds {point : Nat} (h : holds ranges point = true) :
    ∃ range ∈ ranges, range.1 ≤ point ∧ point ≤ range.2 := by
  induction ranges with
  | nil =>
      cases h
  | cons range rest ih =>
      obtain ⟨first, last⟩ := range
      simp only [holds] at h
      split at h
      · cases h
      · rename_i notBelow
        split at h
        · rename_i notAbove
          exact ⟨(first, last), List.mem_cons_self, Nat.le_of_not_lt notBelow, notAbove⟩
        · obtain ⟨other, mem, inside⟩ := ih h
          exact ⟨other, List.mem_cons_of_mem _ mem, inside⟩

theorem ascend_cons {range : Nat × Nat} (h : ascend low (range :: ranges) = true) :
    low ≤ range.1 ∧ range.1 ≤ range.2 ∧ ascend (range.2 + 1) ranges = true := by
  simpa [ascend, and_assoc] using h

theorem le_of_ascend (h : ascend low ranges = true) :
    ∀ range ∈ ranges, low ≤ range.1 := by
  induction ranges generalizing low with
  | nil =>
      simp
  | cons head rest ih =>
      obtain ⟨notBelow, holds, ascends⟩ := ascend_cons h
      intro range mem
      rcases List.mem_cons.mp mem with rfl | later
      · exact notBelow
      · have := ih ascends range later
        omega

/-- What is left of some increasing ranges increases. -/
theorem ascend_dropWhile (h : ascend low others = true) (p : Nat × Nat → Bool) :
    ∃ low', ascend low' (others.dropWhile p) = true := by
  induction others generalizing low with
  | nil =>
      exact ⟨low, rfl⟩
  | cons head rest ih =>
      rw [List.dropWhile_cons]
      split
      · exact ih (ascend_cons h).2.2
      · exact ⟨low, h⟩

/-- Where the first of some increasing ranges begins behind a code point, all of them do. -/
theorem lt_of_head {point : Nat}
    (h : ascend low others = true) (head : others.head?.all (fun other => point < other.1)) :
    ∀ other ∈ others, point < other.1 := by
  cases others with
  | nil =>
      simp
  | cons first rest =>
      have behind : point < first.1 := by simpa using head
      obtain ⟨_, holds, ascends⟩ := ascend_cons h
      intro other mem
      rcases List.mem_cons.mp mem with rfl | later
      · exact behind
      · have := le_of_ascend ascends other later
        omega

theorem lt_or_lt_of_areApart {low' : Nat}
    (h : ascend low ranges = true) (h' : ascend low' others = true)
    (apart : areApart ranges others = true) :
    ∀ range ∈ ranges, ∀ other ∈ others, range.2 < other.1 ∨ other.2 < range.1 := by
  induction ranges generalizing low low' others with
  | nil =>
      simp
  | cons first rest ih =>
      obtain ⟨_, holds, ascends⟩ := ascend_cons h
      obtain ⟨low'', left⟩ := ascend_dropWhile h' fun other => other.2 < first.1
      simp only [areApart, Bool.and_eq_true] at apart
      obtain ⟨head, apart⟩ := apart
      intro range mem other mem'
      have later : first.1 ≤ range.1 := by
        rcases List.mem_cons.mp mem with rfl | mem
        · exact Nat.le_refl _
        · have := le_of_ascend ascends range mem
          omega
      rw [← List.takeWhile_append_dropWhile (p := fun other => other.2 < first.1) (l := others),
        List.mem_append] at mem'
      rcases mem' with behind | ahead
      · have ends := List.all_eq_true.mp List.all_takeWhile other behind
        rw [decide_eq_true_eq] at ends
        omega
      · rcases List.mem_cons.mp mem with rfl | mem
        · exact .inl (lt_of_head left head other ahead)
        · exact ih ascends left apart range mem other ahead

theorem contains_eq_false_of_areApart {c : Char} {low' : Nat}
    (h : ascend low ranges = true) (h' : ascend low' others = true)
    (apart : areApart ranges others = true) (inside : ranges.contains c = true) :
    others.contains c = false := by
  rw [← Bool.not_eq_true]
  intro inside'
  obtain ⟨range, mem, notBelow, notAbove⟩ := exists_of_holds inside
  obtain ⟨other, mem', notBelow', notAbove'⟩ := exists_of_holds inside'
  have := lt_or_lt_of_areApart h h' apart range mem other mem'
  omega

end Ranges

section Classes

variable {c : Char}

theorem ascend_wordRanges :
    Ranges.ascend 0 wordRanges = true := by
  decide +kernel

theorem ascend_numberRanges :
    Ranges.ascend 0 numberRanges = true := by
  decide +kernel

theorem ascend_blankRanges :
    Ranges.ascend 0 blankRanges = true := by
  decide

theorem isNumber_of_isWord (h : isWord c = true) :
    isNumber c = false :=
  Ranges.contains_eq_false_of_areApart ascend_wordRanges ascend_numberRanges
    (by decide +kernel) h

theorem isWord_of_isNumber (h : isNumber c = true) :
    isWord c = false := by
  rw [← Bool.not_eq_true]
  intro h'
  rw [isNumber_of_isWord h'] at h
  cases h

theorem isWord_of_isBlank (h : isBlank c = true) :
    isWord c = false :=
  Ranges.contains_eq_false_of_areApart ascend_blankRanges ascend_wordRanges
    (by decide +kernel) h

theorem isNumber_of_isBlank (h : isBlank c = true) :
    isNumber c = false :=
  Ranges.contains_eq_false_of_areApart ascend_blankRanges ascend_numberRanges
    (by decide +kernel) h

end Classes

end Text
end LetLang
