import LetLang.Diagnostic.Report

/-!
# Rows of a report

**Input.** A diagnostic, a text and the name of a file.

**Result.** `Diagnostic.toList_report`: a report is its rows with a line feed behind each of them.
There is none inside the rows that the language words itself: the names of kinds and the numbers
hold none, and a literal in a message is quoted.  Two texts are shown as they are, a literal in the
advice (`Report.isRow_heading`) and the name of the file.
-/

namespace LetLang

open Text

namespace Report

/-- A text without a line feed, which makes one row of a report. -/
def IsRow (text : String) : Prop :=
  '\n' ∉ text.toList

instance (text : String) : Decidable (IsRow text) :=
  inferInstanceAs (Decidable ('\n' ∉ text.toList))

/-- Rows joined to one text are one row. -/
theorem IsRow.append {first second : String} (h : IsRow first) (h' : IsRow second) :
    IsRow (first ++ second) := by
  intro mem
  rw [String.toList_append, List.mem_append] at mem
  rcases mem with mem | mem
  · exact h mem
  · exact h' mem

theorem isRow_ofList {text : List Char} :
    IsRow (String.ofList text) ↔ '\n' ∉ text := by
  rw [IsRow, String.toList_ofList]

/-- Digits are written without line feeds. -/
theorem feed_not_mem_toDigits {base : Nat} (h : 1 < base) (n : Nat) :
    '\n' ∉ Nat.toDigits base n := by
  induction n using Nat.strongRecOn with
  | ind n ih =>
      rw [Nat.toDigits_eq_if h]
      split
      · simp
      · rename_i notSmall
        have less : n / base < n := Nat.div_lt_self (by omega) h
        simpa using ih (n / base) less

theorem isRow_toString (n : Nat) :
    IsRow (toString n) := by
  rw [Nat.toString_eq_ofList_toDigits, isRow_ofList]
  exact feed_not_mem_toDigits (by decide) n

/-- Whatever a character is, it is quoted without a line feed. -/
theorem feed_not_mem_encodeChar (c : Char) :
    '\n' ∉ Quoted.encodeChar c := by
  unfold Quoted.encodeChar
  split
  · decide
  · split
    · decide
    · split
      · decide
      · rename_i noFeed
        split
        · decide
        · split
          · decide
          · split
            · decide
            · split
              · simpa using Ne.symm noFeed
              · simpa using feed_not_mem_toDigits (by decide) c.toNat

theorem isRow_encode (text : String) :
    IsRow (Quoted.encode text) := by
  rw [Quoted.encode, isRow_ofList]
  simp [feed_not_mem_encodeChar]

theorem isRow_kindName (kind : Kind) :
    IsRow kind.name := by
  cases kind <;> decide

/-- What is said of a diagnostic is one row. -/
theorem isRow_message (cause : Cause) :
    IsRow cause.message := by
  cases cause with
  | unexpectedToken expected received =>
      have opening : IsRow "expected token type " := by decide
      have middle : IsRow ", got " := by decide
      exact (((opening.append (isRow_kindName _)).append middle).append (isRow_kindName _)).append
        (by decide)
  | noOperand kind =>
      exact IsRow.append (by decide) (isRow_kindName kind)
  | badInteger literal fault =>
      have opening : IsRow "could not parse " := by decide
      exact (opening.append (isRow_encode _)).append (by decide)
  | badFloat literal =>
      have opening : IsRow "could not parse " := by decide
      exact (opening.append (isRow_encode _)).append (by decide)
  | nestingTooDeep limit =>
      have opening : IsRow "expression nesting exceeds the limit of " := by decide
      exact (opening.append (isRow_toString _)).append (by decide)

/-- Advice is one row, where the literal that it shows is one. -/
theorem isRow_tip {cause : Cause} {tip : String}
    (shown : ∀ literal fault, cause = .badInteger literal fault → IsRow literal)
    (h : cause.tip? = some tip) :
    IsRow tip := by
  cases cause with
  | unexpectedToken expected received =>
      cases expected <;> cases h <;> decide
  | noOperand kind =>
      cases kind <;> cases h <;> decide
  | badInteger literal fault =>
      have quote : IsRow "`" := by decide
      have opening := quote.append (shown literal fault rfl)
      cases fault with
      | aboveRange | belowRange =>
          cases h
          have limit : IsRow "` is above the integer limit of " := by decide
          exact (opening.append limit).append (isRow_toString _)
      | invalidDigit =>
          cases h
          have base : IsRow "` has a digit outside its base; " := by decide
          exact (opening.append base).append (by decide)
      | empty | zero =>
          cases h
  | badFloat literal =>
      cases h
  | nestingTooDeep limit =>
      cases h
      decide

/-- The first row of a report is one row, where the literal that its advice shows is one. -/
theorem isRow_heading {cause : Cause}
    (shown : ∀ literal fault, cause = .badInteger literal fault → IsRow literal) :
    IsRow (heading cause) := by
  have name : IsRow ("Error: " ++ cause.name) := by
    refine IsRow.append (by decide) ?_
    cases cause <;> (simp only [Cause.name]; decide)
  unfold heading
  split
  · exact name
  · rename_i tip found
    have opening : IsRow " (" := by decide
    exact ((name.append opening).append (isRow_tip shown found)).append (by decide)

end Report

namespace Diagnostic

/-- A report is its rows, with a line feed behind each of them. -/
theorem toList_report (diagnostic : Diagnostic) (source file : String) :
    (diagnostic.report source file).toList =
      ((diagnostic.reportRows source file).map String.toList).flatMap (· ++ ['\n']) := by
  simp [report, String.toList_join, List.flatMap_map]

end Diagnostic

end LetLang
