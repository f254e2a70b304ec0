import LetLang.Literal.Integer
import LetLang.Proofs.Text.Lines
import Mathlib.Data.Nat.Digits.Defs

/-!
# The value of an integer literal

**Input.** Any text.

**Result.** `Integer.parse_exact`: the text is cut behind the bytes of its prefix, and one sign is
taken off.  What is left is read up to its first character that is no digit of the base.  The
outcome is settled by the value of these digits and by whether anything follows on them.

The digits are read from the left, and the number that they make never falls.  So a number that is
once out of range stays out of range, and the order in which a bad digit and too great a number are
met is that of the text.
-/

namespace LetLang
namespace Integer

open Text

section Base

variable {text : List Char} {base : Nat} {c : Char}

/-- The base that a letter behind a leading zero stands for. -/
def baseOfMark? : Char → Option Nat
  | 'x' | 'X' => some 16
  | 'o' | 'O' => some 8
  | 'b' | 'B' => some 2
  | _ => none

/-- The base that the first two bytes of a text stand for, if they are a prefix. -/
def marked? (text : List Char) : Option Nat :=
  match splitAtByte? 2 text with
  | some (['0', c], _) => baseOfMark? c
  | _ => none

/-- The text behind some bytes. -/
def behindBytes? (count : Nat) (text : List Char) : Option (List Char) :=
  (splitAtByte? count text).map Prod.snd

/-- The base of a literal and the text behind the bytes of its prefix.  There is none where the text
would have to be cut inside a character. -/
def cut? (text : List Char) : Option (Nat × List Char) :=
  match marked? text with
  | some base => (behindBytes? 2 text).map fun digits => (base, digits)
  | none =>
      if text.head? = some '0' ∧ 1 < byteLength text then
        (behindBytes? 1 text).map fun digits => (8, digits)
      else
        some (10, text)

theorem utf8Size_of_baseOfMark? (h : baseOfMark? c = some base) :
    c.utf8Size = 1 := by
  unfold baseOfMark? at h
  split at h <;> first
    | decide
    | cases h

theorem baseAndDigits_of_mark (h : baseOfMark? c = some base) (cs : List Char) :
    baseAndDigits ('0' :: c :: cs) = (base, cs) := by
  unfold baseOfMark? at h
  split at h <;> cases h <;> rfl

theorem baseAndDigits_of_zero (h : baseOfMark? c = none) (cs : List Char) :
    baseAndDigits ('0' :: c :: cs) = (8, c :: cs) := by
  unfold baseAndDigits
  split
  case h_1 | h_2 | h_3 | h_4 | h_5 | h_6 =>
    rename_i same
    cases same
    cases h
  case h_7 =>
    rename_i same
    cases same
    rfl
  case h_8 =>
    rename_i other
    exact absurd rfl (other c cs)

theorem baseAndDigits_of_other (h : ∀ c cs, text ≠ '0' :: c :: cs) :
    baseAndDigits text = (10, text) := by
  unfold baseAndDigits
  split
  case h_8 =>
    rfl
  all_goals exact absurd rfl (h _ _)

/-- The first two bytes are a prefix exactly if the first two characters are. -/
theorem marked?_eq_some_iff :
    marked? text = some base ↔ ∃ c cs, text = '0' :: c :: cs ∧ baseOfMark? c = some base := by
  unfold marked?
  constructor
  · intro found
    split at found
    · rename_i c cs divided
      exact ⟨c, cs, (splitAtByte?_eq_some_iff.mp divided).1, found⟩
    · cases found
  · rintro ⟨c, cs, rfl, found⟩
    have size : byteLength ['0', c] = 2 := by
      rw [byteLength_cons, byteLength_cons, utf8Size_of_baseOfMark? found]
      rfl
    have divided : splitAtByte? 2 ('0' :: c :: cs) = some (['0', c], cs) :=
      splitAtByte?_eq_some_iff.mpr ⟨rfl, size⟩
    rw [divided]
    exact found

theorem behindBytes?_append (front back : List Char) :
    behindBytes? (byteLength front) (front ++ back) = some back := by
  rw [behindBytes?, splitAtByte?_append]
  rfl

/-- A literal is never cut inside a character. -/
theorem cut?_eq (text : List Char) :
    cut? text = some (baseAndDigits text) := by
  unfold cut?
  cases found : marked? text with
  | some base =>
      obtain ⟨c, cs, rfl, mark⟩ := marked?_eq_some_iff.mp found
      have behind := behindBytes?_append ['0', c] cs
      rw [byteLength_cons, byteLength_cons, utf8Size_of_baseOfMark? mark] at behind
      rw [baseAndDigits_of_mark mark]
      exact congrArg (Option.map fun digits => (base, digits)) behind
  | none =>
      have noMark (c : Char) (cs : List Char) (same : text = '0' :: c :: cs) :
          baseOfMark? c = none := by
        rw [Option.eq_none_iff_forall_ne_some]
        intro base mark
        rw [marked?_eq_some_iff.mpr ⟨c, cs, same, mark⟩] at found
        cases found
      dsimp only
      split
      · rename_i octal
        cases text with
        | nil =>
            cases octal.1
        | cons z cs =>
            obtain rfl : z = '0' := Option.some.inj octal.1
            cases cs with
            | nil =>
                exact absurd octal.2 (by decide)
            | cons c cs =>
                rw [baseAndDigits_of_zero (noMark c cs rfl)]
                exact congrArg (Option.map fun digits => (8, digits))
                  (behindBytes?_append ['0'] (c :: cs))
      · rename_i notOctal
        rw [baseAndDigits_of_other]
        rintro c cs rfl
        refine notOctal ⟨rfl, ?_⟩
        have positive := c.utf8Size_pos
        have size : ('0' : Char).utf8Size = 1 := rfl
        rw [byteLength_cons, byteLength_cons, size]
        omega

/-- The base of a literal is two, eight, ten or sixteen. -/
theorem base_mem (text : List Char) :
    (baseAndDigits text).1 ∈ [2, 8, 10, 16] := by
  unfold baseAndDigits
  split <;> simp

theorem base_bounds (text : List Char) :
    0 < (baseAndDigits text).1 ∧ (baseAndDigits text).1 ≤ 16 := by
  have mem := base_mem text
  simp only [List.mem_cons, List.not_mem_nil, or_false] at mem
  omega

end Base

section Digits

variable {base d : Nat} {c : Char} {valid rest : List Char} {values : List Nat}

/-- A character is the digit of a base that has some value.  Letters may be of either case. -/
def IsDigit (base : Nat) (c : Char) (d : Nat) : Prop :=
  d < base ∧ (c = d.digitChar ∨ c = d.digitChar.toUpper)

/-- A text is written in the digits of a base, which have some values. -/
def Writes (base : Nat) (text : List Char) (values : List Nat) : Prop :=
  List.Forall₂ (IsDigit base) text values

/-- A text does not go on with a digit of a base. -/
def Stops (base : Nat) (rest : List Char) : Prop :=
  ∀ c ∈ rest.head?, ∀ d, ¬ IsDigit base c d

/-- What holds of the figures and the letters that are digits holds of all digits of a base. -/
theorem Writes.forall_mem {P : Char → Prop} {limit : Nat}
    (all : ∀ d < limit, P d.digitChar ∧ P d.digitChar.toUpper) (small : base ≤ limit)
    (h : Writes base valid values) :
    ∀ c ∈ valid, P c := by
  induction h with
  | nil =>
      simp
  | @cons c d cs ds digit others ih =>
      refine List.forall_mem_cons.mpr ⟨?_, ih⟩
      obtain ⟨figure, capital⟩ := all d (Nat.lt_of_lt_of_le digit.1 small)
      rcases digit.2 with rfl | rfl
      · exact figure
      · exact capital

/-- The values of the figures and the letters. -/
theorem digitValue?_digitChar :
    ∀ d < 16, digitValue? d.digitChar = some d ∧ digitValue? d.digitChar.toUpper = some d := by
  decide

/-- A value below sixteen belongs to a figure or to a letter, small or capital. -/
theorem eq_digitChar (small : d < 16) (h : digitValue? c = some d) :
    c = d.digitChar ∨ c = d.digitChar.toUpper := by
  have figure : ∀ n < 10, Char.ofNat (n + 48) = n.digitChar := by decide
  have letter : ∀ n < 6, Char.ofNat (n + 97) = (n + 10).digitChar := by decide
  have capital : ∀ n < 6, Char.ofNat (n + 65) = (n + 10).digitChar.toUpper := by decide
  have point {n k : Nat} (same : c.toNat - k = n) (above : k ≤ c.toNat) :
      c = Char.ofNat (n + k) := by
    rw [← same, Nat.sub_add_cancel above, Char.ofNat_toNat]
  unfold digitValue? at h
  split at h
  · rename_i range
    have same : c.toNat - 48 = d := Option.some.inj h
    have within : c.toNat ≤ 57 := range.2
    rw [point same range.1]
    exact .inl (figure d (by omega))
  · split at h
    · rename_i range
      have same : c.toNat - 97 + 10 = d := Option.some.inj h
      rw [point (k := 97) rfl range.1, letter _ (by omega)]
      exact .inl (congrArg Nat.digitChar same)
    · split at h
      · rename_i range
        have same : c.toNat - 65 + 10 = d := Option.some.inj h
        rw [point (k := 65) rfl range.1, capital _ (by omega)]
        exact .inr (congrArg (fun n => n.digitChar.toUpper) same)
      · cases h

/-- The digits of a base up to sixteen are those to which a value is given. -/
theorem digit?_eq_some_iff (small : base ≤ 16) :
    digit? base c = some d ↔ IsDigit base c d := by
  rw [digit?, Option.filter_eq_some_iff, decide_eq_true_eq]
  constructor
  · rintro ⟨found, below⟩
    exact ⟨below, eq_digitChar (Nat.lt_of_lt_of_le below small) found⟩
  · rintro ⟨below, shape⟩
    have values := digitValue?_digitChar d (Nat.lt_of_lt_of_le below small)
    rcases shape with rfl | rfl
    · exact ⟨values.1, below⟩
    · exact ⟨values.2, below⟩

theorem digit?_eq_none_iff (small : base ≤ 16) :
    digit? base c = none ↔ ∀ d, ¬ IsDigit base c d := by
  rw [Option.eq_none_iff_forall_ne_some]
  exact forall_congr' fun d => not_congr (digit?_eq_some_iff small)

/-- Every text begins with as many digits as there are, and what follows does not go on with one. -/
theorem exists_writes (base : Nat) (text : List Char) :
    ∃ valid values rest, text = valid ++ rest ∧ Writes base valid values ∧ Stops base rest := by
  induction text with
  | nil =>
      exact ⟨[], [], [], rfl, .nil, by simp [Stops]⟩
  | cons c cs ih =>
      by_cases digit : ∃ d, IsDigit base c d
      · obtain ⟨d, digit⟩ := digit
        obtain ⟨valid, values, rest, rfl, writes, stops⟩ := ih
        exact ⟨c :: valid, d :: values, rest, rfl, .cons digit writes, stops⟩
      · refine ⟨[], [], c :: cs, rfl, .nil, ?_⟩
        intro d first
        obtain rfl := Option.some.inj first
        exact not_exists.mp digit

/-- The number that digits make behind those of another one. -/
def extend (base start : Nat) (values : List Nat) : Nat :=
  values.foldl (fun n d => n * base + d) start

/-- More digits never make a number less. -/
theorem le_extend (positive : 0 < base) (start : Nat) (values : List Nat) :
    start ≤ extend base start values := by
  induction values generalizing start with
  | nil =>
      exact Nat.le_refl start
  | cons d ds ih =>
      calc start ≤ start * base := Nat.le_mul_of_pos_right start positive
        _ ≤ start * base + d := Nat.le_add_right _ d
        _ ≤ extend base (start * base + d) ds := ih _

/-- Digits make the number that has them, the last one first, for the digits of the base. -/
theorem extend_zero (base : Nat) (values : List Nat) :
    extend base 0 values = Nat.ofDigits base values.reverse := by
  rw [Nat.ofDigits_eq_foldr, List.foldr_reverse]
  simp only [extend, Nat.cast_id, Nat.add_comm, Nat.mul_comm]

/-- Digits are read up to the first character that is none, unless the number that they make exceeds
the limit. -/
theorem magnitude_append {limit : Nat} {overflow : Fault} (small : base ≤ 16) (positive : 0 < base)
    (writes : Writes base valid values) (stops : Stops base rest)
    (start : Nat) (within : start ≤ limit) :
    magnitude base limit overflow start (valid ++ rest) =
      if limit < extend base start values then .error overflow
      else if rest = [] then .ok (extend base start values)
      else .error .invalidDigit := by
  induction writes generalizing start with
  | nil =>
      have value : extend base start [] = start := rfl
      rw [value, if_neg (Nat.not_lt.mpr within)]
      cases rest with
      | nil =>
          rfl
      | cons c cs =>
          have noDigit := (digit?_eq_none_iff small).mpr (stops c rfl)
          simp only [List.nil_append, magnitude, noDigit, List.cons_ne_nil, if_false]
  | @cons c d valid values digit writes ih =>
      rw [List.cons_append, magnitude, (digit?_eq_some_iff small).mpr digit]
      by_cases above : limit < start * base + d
      · -- The number has become too great and does not fall again.
        have never := Nat.lt_of_lt_of_le above (le_extend positive _ values)
        simp only [above, if_true]
        exact (if_pos never).symm
      · simp only [above, if_false]
        exact ih _ (Nat.le_of_not_lt above)

end Digits

section Sign

variable {base : Nat} {digits valid rest : List Char} {values : List Nat}

/-- The sign of a number, and the text behind it.  A sign counts only where something follows. -/
def signAndBody : List Char → Int × List Char
  | '+' :: c :: cs => (1, c :: cs)
  | '-' :: c :: cs => (-1, c :: cs)
  | cs => (1, cs)

/-- The numbers of 64 bits with a sign. -/
def InRange (value : Int) : Prop :=
  -2 ^ 63 ≤ value ∧ value ≤ 2 ^ 63 - 1

/-- What comes of digits with some value when some text is left behind them.  Range goes before the
text that is left: this is looked at only where the digits make a number in range. -/
structure Settles (value : Int) (rest : List Char) (result : Except Fault Int) : Prop where
  ok : ∀ v, result = .ok v ↔ v = value ∧ rest = [] ∧ InRange value
  aboveRange : result = .error .aboveRange ↔ 2 ^ 63 - 1 < value
  belowRange : result = .error .belowRange ↔ value < -2 ^ 63
  invalidDigit : result = .error .invalidDigit ↔ rest ≠ [] ∧ InRange value

namespace Settles

variable {value : Int}

theorem of_inRange (h : InRange value) :
    Settles value [] (.ok value) := by
  unfold InRange at h
  constructor
  case ok =>
    intro v
    simp only [Except.ok.injEq, InRange, h, and_true]
    exact eq_comm
  case aboveRange | belowRange =>
    simp only [reduceCtorEq, false_iff]
    omega
  case invalidDigit =>
    simp

theorem of_rest (h : InRange value) (some : rest ≠ []) :
    Settles value rest (.error .invalidDigit) := by
  constructor
  case ok =>
    simp [some]
  case aboveRange | belowRange =>
    unfold InRange at h
    simp only [Except.error.injEq, reduceCtorEq, false_iff]
    omega
  case invalidDigit =>
    simp [some, h]

theorem of_aboveRange (h : 2 ^ 63 - 1 < value) :
    Settles value rest (.error .aboveRange) := by
  have out : ¬ InRange value := by
    unfold InRange
    omega
  constructor
  case ok | invalidDigit =>
    simp [out]
  case aboveRange =>
    exact iff_of_true rfl h
  case belowRange =>
    simp only [Except.error.injEq, reduceCtorEq, false_iff]
    omega

theorem of_belowRange (h : value < -2 ^ 63) :
    Settles value rest (.error .belowRange) := by
  have out : ¬ InRange value := by
    unfold InRange
    omega
  constructor
  case ok | invalidDigit =>
    simp [out]
  case aboveRange =>
    simp only [Except.error.injEq, reduceCtorEq, false_iff]
    omega
  case belowRange =>
    exact iff_of_true rfl h

/-- Where there are digits, or something in their place, the literal is not empty. -/
theorem ne_empty {result : Except Fault Int} (h : Settles value rest result) :
    result ≠ .error .empty := by
  rintro rfl
  have notAbove := mt h.aboveRange.mpr (by simp)
  have notBelow := mt h.belowRange.mpr (by simp)
  have inRange : InRange value := by
    unfold InRange
    omega
  by_cases noRest : rest = []
  · cases (h.ok value).mpr ⟨rfl, noRest, inRange⟩
  · cases h.invalidDigit.mpr ⟨noRest, inRange⟩

end Settles

/-- Digits are read as a number, of which a limit says whether it is in range. -/
theorem settles_magnitude {limit : Nat} {overflow : Fault} {number : Nat → Int}
    (small : base ≤ 16) (some : 0 < base) (writes : Writes base valid values)
    (stops : Stops base rest)
    (within : ∀ n ≤ limit, InRange (number n))
    (above : ∀ n, limit < n → Settles (number n) rest (.error overflow)) :
    Settles (number (Nat.ofDigits base values.reverse)) rest
      ((magnitude base limit overflow 0 (valid ++ rest)).map number) := by
  rw [magnitude_append small some writes stops 0 (Nat.zero_le _), extend_zero]
  generalize Nat.ofDigits base values.reverse = n
  split
  · rename_i tooGreat
    exact above n tooGreat
  · rename_i notTooGreat
    have inRange := within n (Nat.le_of_not_lt notTooGreat)
    split
    · rename_i noRest
      rw [noRest]
      exact .of_inRange inRange
    · rename_i left
      exact .of_rest inRange left

/-- The digits of a number that is not negative. -/
theorem settles_positive (small : base ≤ 16) (some : 0 < base) (writes : Writes base valid values)
    (stops : Stops base rest) :
    Settles (Nat.ofDigits base values.reverse : Nat) rest (positive base (valid ++ rest)) := by
  have limit : maximum = 2 ^ 63 - 1 := rfl
  refine @settles_magnitude _ _ _ _ maximum .aboveRange Int.ofNat small some writes stops ?_ ?_
  · intro n within
    show -2 ^ 63 ≤ (n : Int) ∧ (n : Int) ≤ 2 ^ 63 - 1
    omega
  · intro n above
    have out : 2 ^ 63 - 1 < (n : Int) := by omega
    exact .of_aboveRange out

/-- The digits behind a minus sign. -/
theorem settles_negative (small : base ≤ 16) (some : 0 < base) (writes : Writes base valid values)
    (stops : Stops base rest) :
    Settles (-(Nat.ofDigits base values.reverse : Nat)) rest (negative base (valid ++ rest)) := by
  have limit : maximum + 1 = 2 ^ 63 := rfl
  refine @settles_magnitude _ _ _ _ (maximum + 1) .belowRange (fun n => -Int.ofNat n) small some
    writes stops ?_ ?_
  · intro n within
    show -2 ^ 63 ≤ -(n : Int) ∧ -(n : Int) ≤ 2 ^ 63 - 1
    omega
  · intro n below
    have out : -(n : Int) < -2 ^ 63 := by omega
    exact .of_belowRange out

/-- Where there is something to read, the sign says how it is read. -/
theorem signed_eq (base : Nat) (some : digits ≠ []) :
    (signAndBody digits).1 = 1 ∧ signed base digits = positive base (signAndBody digits).2 ∨
      (signAndBody digits).1 = -1 ∧ signed base digits = negative base (signAndBody digits).2 := by
  unfold signAndBody signed
  split
  · exact .inl ⟨rfl, rfl⟩
  · exact .inr ⟨rfl, rfl⟩
  · rename_i notPlus notMinus
    split
    · exact absurd rfl some
    · exact absurd rfl (notPlus _ _)
    · exact absurd rfl (notMinus _ _)
    · exact .inl ⟨rfl, rfl⟩

/-- What follows on a sign, or stands without one, is read up to the first character that is no
digit. -/
theorem settles_signed (small : base ≤ 16) (positive : 0 < base) (some : digits ≠ []) :
    ∃ sign valid values rest, signAndBody digits = (sign, valid ++ rest) ∧
      Writes base valid values ∧ Stops base rest ∧
      Settles (sign * (Nat.ofDigits base values.reverse : Nat)) rest (signed base digits) := by
  obtain ⟨valid, values, rest, body, writes, stops⟩ := exists_writes base (signAndBody digits).2
  refine ⟨(signAndBody digits).1, valid, values, rest, Prod.ext rfl body, writes, stops, ?_⟩
  rcases signed_eq base some with ⟨sign, read⟩ | ⟨sign, read⟩
  · rw [sign, read, body, Int.one_mul]
    exact settles_positive small positive writes stops
  · rw [sign, read, body, Int.neg_one_mul]
    exact settles_negative small positive writes stops

end Sign

/-- A sign is no digit, so digits alone have none. -/
theorem signed_of_writes {base : Nat} {digits : List Char} {values : List Nat} (small : base ≤ 16)
    (some : digits ≠ []) (writes : Writes base digits values) :
    signed base digits = positive base digits := by
  have noSign : ∀ c ∈ digits, c ≠ '+' ∧ c ≠ '-' :=
    writes.forall_mem (by decide) small
  unfold signed
  split
  · exact absurd rfl some
  · exact absurd rfl (noSign '+' List.mem_cons_self).1
  · exact absurd rfl (noSign '-' List.mem_cons_self).2
  · rfl

/-- Digits alone are the number that they make, if it is not too great. -/
theorem parse_of_writes {base : Nat} {literal : String} {digits : List Char} {values : List Nat}
    (cut : baseAndDigits literal.toList = (base, digits)) (some : digits ≠ [])
    (writes : Writes base digits values) (fits : Nat.ofDigits base values.reverse ≤ maximum) :
    parse literal = .ok (Nat.ofDigits base values.reverse : Nat) := by
  obtain ⟨positive, small⟩ := base_bounds literal.toList
  rw [cut] at positive small
  have settles := @settles_positive base digits [] values small positive writes (by simp [Stops])
  rw [List.append_nil, ← signed_of_writes small some writes] at settles
  have inRange : InRange ((Nat.ofDigits base values.reverse : Nat) : Int) := by
    have limit : maximum = 2 ^ 63 - 1 := rfl
    unfold InRange
    omega
  rw [parse, cut]
  exact (settles.ok _).mpr ⟨rfl, rfl, inRange⟩

/-- For every text, the number that it stands for as a literal, or what is wrong with it. -/
theorem parse_exact (literal : String) :
    ∃ base digits, cut? literal.toList = some (base, digits) ∧
      (parse literal = .error .empty ↔ digits = []) ∧
      (digits = [] ∨
        ∃ sign valid values rest, signAndBody digits = (sign, valid ++ rest) ∧
          Writes base valid values ∧ Stops base rest ∧
          Settles (sign * (Nat.ofDigits base values.reverse : Nat)) rest (parse literal)) := by
  obtain ⟨positive, small⟩ := base_bounds literal.toList
  have read : parse literal =
      signed (baseAndDigits literal.toList).1 (baseAndDigits literal.toList).2 := rfl
  refine ⟨(baseAndDigits literal.toList).1, (baseAndDigits literal.toList).2,
    cut?_eq literal.toList, ?_⟩
  rw [read]
  generalize (baseAndDigits literal.toList).2 = digits
  by_cases none : digits = []
  · rw [none]
    exact ⟨iff_of_true rfl rfl, .inl rfl⟩
  · obtain ⟨sign, valid, values, rest, body, writes, stops, settles⟩ :=
      settles_signed small positive none
    exact ⟨iff_of_false settles.ne_empty none,
      .inr ⟨sign, valid, values, rest, body, writes, stops, settles⟩⟩

/-- A sign counts behind a prefix and not before it, and range goes before a bad digit. -/
example : parse "-0x8" = .error .invalidDigit ∧ parse "0x-8" = .ok (-8) ∧
    parse "99999999999999999999z" = .error .aboveRange := by
  decide

end Integer
end LetLang
