import LetLang.Literal.Integer
import LetLang.Proofs.Token.Spelling

/-!
# What can be wrong with an integer token

An integer token is a run of number characters.  None of these is a sign or the letter of a base,
so of the faults that the text of an integer may have only two are left: a number character that is
no digit of the base, and a number that is too great.
-/

namespace LetLang
namespace Integer

open Text

variable {base : Nat} {text : List Char} {fault : Fault}

/-- Reading digits ends in the fault of a bad digit, or in that of too great a number. -/
theorem fault_of_magnitude {limit value : Nat} {overflow : Fault}
    (h : magnitude base limit overflow value text = .error fault) :
    fault = .invalidDigit ∨ fault = overflow := by
  induction text generalizing value with
  | nil =>
      cases h
  | cons c cs ih =>
      simp only [magnitude] at h
      split at h
      · cases h
        exact .inl rfl
      · split at h
        · cases h
          exact .inr rfl
        · exact ih h

theorem fault_of_positive (h : positive base text = .error fault) :
    fault = .invalidDigit ∨ fault = .aboveRange := by
  cases read : magnitude base maximum .aboveRange 0 text with
  | ok value =>
      simp [positive, read, Except.map] at h
  | error fault' =>
      simp only [positive, read, Except.map, Except.error.injEq] at h
      exact h ▸ fault_of_magnitude read

/-- Text that does not begin with a sign is read as a number that is not negative. -/
theorem signed_eq_positive {c : Char} {cs : List Char} (digit : isNumber c = true) :
    signed base (c :: cs) = positive base (c :: cs) := by
  unfold signed
  split
  · rename_i none
    cases none
  · rename_i sign
    cases sign
    exact absurd digit (by decide)
  · rename_i sign
    cases sign
    exact absurd digit (by decide)
  · rfl

/-- A run of number characters has one of two bases, and there are digits behind its prefix. -/
theorem baseAndDigits_of_numbers {c : Char} {cs : List Char} (all : ∀ d ∈ c :: cs, isNumber d) :
    ∃ base d ds, baseAndDigits (c :: cs) = (base, d :: ds) ∧ isNumber d = true := by
  unfold baseAndDigits
  split
  case h_1 | h_2 | h_3 | h_4 | h_5 | h_6 =>
    rename_i isPrefix
    cases isPrefix
    exact absurd (all _ (List.mem_cons_of_mem _ List.mem_cons_self)) (by decide)
  case h_7 =>
    rename_i octal
    cases octal
    exact ⟨8, _, _, rfl, all _ (List.mem_cons_of_mem _ List.mem_cons_self)⟩
  case h_8 =>
    exact ⟨10, c, cs, rfl, all c List.mem_cons_self⟩

/-- What is wrong with a run of number characters is a digit, or the greatness of the number. -/
theorem fault_of_numbers {c : Char} {cs : List Char} (all : ∀ d ∈ c :: cs, isNumber d)
    {literal : String} (text : literal.toList = c :: cs) (h : parse literal = .error fault) :
    fault = .invalidDigit ∨ fault = .aboveRange := by
  obtain ⟨base, d, ds, digits, isDigit⟩ := baseAndDigits_of_numbers all
  rw [parse, text, digits] at h
  exact fault_of_positive ((signed_eq_positive isDigit).symm.trans h)

end Integer

/-- An integer token is a run of number characters. -/
theorem Lexeme.Spells.numbers {text : List Char} (h : Spells .integer text) :
    ∃ c cs, text = c :: cs ∧ ∀ d ∈ text, Text.isNumber d := by
  generalize same : Kind.integer = kind at h
  cases h with
  | operator alone =>
      exact absurd (same ▸ (operator?_alone_iff.mp alone).1 : Kind.integer ∈ Kind.operators)
        (by decide)
  | word noOperator all =>
      exact absurd (same ▸ Kind.ofWord_mem_words _ : Kind.integer ∈ Kind.words) (by decide)
  | integer _ _ all =>
      exact ⟨_, _, rfl, all⟩
  | float | illegal =>
      cases same

/-- What is wrong with an integer token is a digit, or the greatness of the number. -/
theorem Token.Spelled.fault_of_integer {literal : String} {fault : Integer.Fault}
    (h : Spelled .integer literal.toList) (failed : Integer.parse literal = .error fault) :
    fault = .invalidDigit ∨ fault = .aboveRange := by
  obtain ⟨c, cs, text, all⟩ := h.spells.numbers
  rw [text] at all
  exact Integer.fault_of_numbers all text failed

end LetLang
