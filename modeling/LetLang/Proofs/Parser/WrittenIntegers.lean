import LetLang.Proofs.Literal.Faults
import LetLang.Proofs.Literal.Value
import LetLang.Proofs.Parser.Leaves
import LetLang.Proofs.Token.Longest
import LetLang.Proofs.Token.Lossless

/-!
# Integers as they are written

**Input.** A number, and a text in which it is written: in decimal digits, in octal digits behind a
zero, or behind a zero and the letter of a base.

**Result.** `parse_written`: the text is always converted to the number, and it is parsed to the
number exactly if no letter stands behind the zero.  A letter begins a name, so the zero is a
statement by itself then, the name is another, and whatever follows is more names and numbers.

The conversion is of a text as a whole.  What the parser converts are the tokens, and a token has
either letters or digits.
-/

namespace LetLang

open Text

namespace Integer

variable {n base : Nat} {text digits : List Char} {values : List Nat} {c : Char}

/-- A text in which a number is written. -/
inductive Written : Nat → List Char → Prop
  | decimal {digits : List Char} {values : List Nat} :
      Writes 10 digits values → digits ≠ [] → (digits.head? = some '0' → digits = ['0']) →
      Written (Nat.ofDigits 10 values.reverse) digits
  | octal {digits : List Char} {values : List Nat} :
      Writes 8 digits values → digits ≠ [] →
      Written (Nat.ofDigits 8 values.reverse) ('0' :: digits)
  | marked {mark : Char} {base : Nat} {digits : List Char} {values : List Nat} :
      baseOfMark? mark = some base → Writes base digits values → digits ≠ [] →
      Written (Nat.ofDigits base values.reverse) ('0' :: mark :: digits)

/-- The letters that are digits or give a base. -/
def letters : List Char :=
  ['a', 'b', 'c', 'd', 'e', 'f', 'A', 'B', 'C', 'D', 'E', 'F', 'x', 'X', 'o', 'O']

theorem isWord_of_mem_letters (mem : c ∈ letters) :
    isWord c = true :=
  List.all_eq_true.mp (by decide : letters.all isWord = true) c mem

theorem mem_letters_of_mark (h : baseOfMark? c = some base) :
    c ∈ letters := by
  unfold baseOfMark? at h
  split at h <;> first
    | decide
    | cases h

/-- Digits below ten are number characters. -/
theorem Writes.isNumber (h : Writes base digits values) (small : base ≤ 10) :
    ∀ c ∈ digits, Text.isNumber c :=
  h.forall_mem (by decide) small

/-- All digits are number characters or some of the letters. -/
theorem Writes.isNumber_or_mem_letters (h : Writes base digits values) (small : base ≤ 16) :
    ∀ c ∈ digits, Text.isNumber c ∨ c ∈ letters :=
  h.forall_mem (by decide) small

/-- No letter of a base is a number character. -/
theorem baseOfMark?_of_isNumber (h : isNumber c = true) :
    baseOfMark? c = none := by
  rw [Option.eq_none_iff_forall_ne_some]
  intro base mark
  have word := isWord_of_mem_letters (mem_letters_of_mark mark)
  rw [isWord_of_isNumber h] at word
  cases word

namespace Written

/-- What is behind the prefix of a written number are its digits. -/
theorem cut (h : Written n text) :
    ∃ base digits values, baseAndDigits text = (base, digits) ∧ digits ≠ [] ∧
      Writes base digits values ∧ n = Nat.ofDigits base values.reverse := by
  cases h with
  | @decimal _ values writes some plain =>
      refine ⟨10, text, values, baseAndDigits_of_other ?_, some, writes, rfl⟩
      rintro c cs rfl
      cases plain rfl
  | @octal digits values writes some =>
      refine ⟨8, digits, values, ?_, some, writes, rfl⟩
      cases digits with
      | nil =>
          exact absurd rfl some
      | cons c cs =>
          have digit := writes.isNumber (by decide) c List.mem_cons_self
          exact baseAndDigits_of_zero (baseOfMark?_of_isNumber digit) cs
  | @marked mark base digits values isMark writes some =>
      exact ⟨base, digits, values, baseAndDigits_of_mark isMark digits, some, writes, rfl⟩

/-- A written number is converted to the number, whichever way it is written. -/
theorem parse_eq {literal : String} (h : Written n literal.toList) (fits : n ≤ maximum) :
    parse literal = .ok n := by
  obtain ⟨base, digits, values, cut, some, writes, rfl⟩ := h.cut
  exact parse_of_writes cut some writes fits

/-- Without the letter of a base, a written number is a run of number characters. -/
theorem isNumber (h : Written n text) (unmarked : marked? text = none) :
    text ≠ [] ∧ ∀ c ∈ text, Text.isNumber c := by
  cases h with
  | decimal writes some plain =>
      exact ⟨some, writes.isNumber (by decide)⟩
  | octal writes some =>
      refine ⟨List.cons_ne_nil _ _, List.forall_mem_cons.mpr ⟨by decide, ?_⟩⟩
      exact writes.isNumber (by decide)
  | @marked mark base digits values isMark writes some =>
      rw [marked?_eq_some_iff.mpr ⟨mark, digits, rfl, isMark⟩] at unmarked
      cases unmarked

/-- A written number is made of number characters and a few letters. -/
theorem isNumber_or_mem_letters (h : Written n text) :
    ∀ c ∈ text, Text.isNumber c ∨ c ∈ letters := by
  have zero : Text.isNumber '0' = true := by
    decide
  cases h with
  | decimal writes some plain =>
      exact writes.isNumber_or_mem_letters (by decide)
  | octal writes some =>
      exact List.forall_mem_cons.mpr ⟨.inl zero, writes.isNumber_or_mem_letters (by decide)⟩
  | @marked mark base digits values isMark writes some =>
      have small : base ≤ 16 := by
        have bounds := base_bounds ('0' :: mark :: digits)
        rw [baseAndDigits_of_mark isMark] at bounds
        exact bounds.2
      refine List.forall_mem_cons.mpr ⟨.inl zero, List.forall_mem_cons.mpr ⟨?_, ?_⟩⟩
      · exact .inr (mem_letters_of_mark isMark)
      · exact writes.isNumber_or_mem_letters small

end Written

end Integer

namespace Token

open LetLang.Integer

variable {offset : Nat} {kind : Kind} {text rest : List Char}

/-- A lexeme that occurs is the first token. -/
theorem scan_of_occurs (h : Lexeme.Occurs kind text rest) :
    scan offset (text ++ rest) =
      ⟨kind, String.ofList text, ⟨offset, offset + byteLength text⟩⟩ ::
        scan (offset + byteLength text) rest :=
  Spelled.scan_append ⟨h.spells.1, h.notBlank⟩ h.spells.2

/-- A text that begins with a word character begins with a word. -/
theorem scan_of_isWord {c : Char} (isWordChar : isWord c = true) (cs : List Char) :
    ∃ word others, scan offset (c :: cs) = word :: others ∧ word.kind ∈ Kind.words ∧
      word.start = offset ∧ word.literal.toList.head? = some c := by
  have whole : c :: cs = (c :: cs.takeWhile isWord) ++ cs.dropWhile isWord :=
    congrArg (List.cons c) List.takeWhile_append_dropWhile.symm
  have occurs : Lexeme.Occurs (.ofWord (String.ofList (c :: cs.takeWhile isWord)))
      (c :: cs.takeWhile isWord) (cs.dropWhile isWord) := by
    refine .word (List.cons_ne_nil _ _) ?_ ?_ (Kind.classifies_iff.mpr rfl)
    · exact List.forall_mem_cons.mpr ⟨isWordChar, fun _ => Lexeme.of_mem_takeWhile⟩
    · intro d first
      exact Bool.eq_false_iff.mp (Lexeme.parted_of_dropWhile isWord cs d first)
  refine ⟨_, _, by rw [whole, scan_of_occurs occurs], Kind.ofWord_mem_words _, rfl, ?_⟩
  rw [String.toList_ofList]
  rfl

/-- No word is reserved that is made of the letters in which a number may be written. -/
theorem ofWord_of_letters (all : ∀ c ∈ text, c ∈ letters) :
    Kind.ofWord (String.ofList text) = .identifier := by
  have others : ∀ entry ∈ Kind.reserved, entry.1.toList.all (· ∈ letters) = false := by
    decide
  refine (Kind.classifies_iff.mp (.inr ⟨rfl, ?_⟩)).symm
  intro entry mem same
  have outside := others entry mem
  rw [same, String.toList_ofList, List.all_eq_false] at outside
  obtain ⟨c, inside, notLetter⟩ := outside
  exact notLetter (decide_eq_true (all c inside))

/-- A text of number characters and such letters is made of names and integers. -/
theorem kind_of_letters (all : ∀ c ∈ text, isNumber c ∨ c ∈ letters) :
    ∀ token ∈ scan 0 text, token.kind = .identifier ∨ token.kind = .integer := by
  intro token mem
  obtain ⟨_, _, piece⟩ := @Segments.pieces _ [] _ _ (segments_scan 0 text) rfl token mem
  obtain ⟨before, behind, whole, _, _⟩ := exists_of_slice? piece
  have all : ∀ c ∈ token.literal.toList, isNumber c ∨ c ∈ letters := by
    intro c mem
    refine all c ?_
    rw [← List.nil_append text, whole]
    exact List.mem_append_right _ (List.mem_append_left _ mem)
  have spells := (spelled_of_mem_scan mem).spells
  generalize token.kind = kind, token.literal.toList = literal at spells all ⊢
  cases spells with
  | operator alone =>
      cases literal with
      | nil =>
          cases alone
      | cons c cs =>
          have noOperator : c ∉ Lexeme.operatorCharacters := by
            rcases all c List.mem_cons_self with digit | letter
            · exact Lexeme.not_mem_operatorCharacters_of_isNumber digit
            · exact Lexeme.not_mem_operatorCharacters_of_isWord (isWord_of_mem_letters letter)
          rw [Lexeme.operator?_eq_none_iff.mpr noOperator] at alone
          cases alone
  | @word c cs _ isWord =>
      refine .inl (ofWord_of_letters fun d mem => ?_)
      rcases all d mem with digit | letter
      · have word := isWord d mem
        rw [isWord_of_isNumber digit] at word
        cases word
      · exact letter
  | integer =>
      exact .inr rfl
  | float =>
      have point : isNumber '.' ∨ '.' ∈ letters := all '.' (by simp)
      exact absurd point (by decide)
  | @illegal c _ noWord noNumber =>
      rcases all c (List.mem_singleton.mpr rfl) with digit | letter
      · rw [digit] at noNumber
        cases noNumber
      · rw [isWord_of_mem_letters letter] at noWord
        cases noWord

/-- A name and an integer are operands by themselves. -/
theorem isSome_leaf? {token : Token} (h : token.kind = .identifier ∨ token.kind = .integer) :
    token.leaf?.isSome := by
  unfold leaf?
  rcases h with kind | kind
  · rw [kind]
    rfl
  · rw [kind]
    cases read : Integer.parse token.literal with
    | ok value => rfl
    | error fault => rfl

end Token

/-- A text is parsed to a number: to one statement, which is an integer with the text for its
literal. -/
def ParsesTo (text : String) (n : Nat) : Prop :=
  (parse text).diagnostics = [] ∧
    ∃ token, token.kind = .integer ∧ token.literal = text ∧
      (parse text).program.statements = [.expression token (.integer token n)]

/-- A text is torn behind its first character, which is the integer zero, and before a name that
begins with its second one.  All that it is made of are names and integers, each of which is a
statement, or a diagnostic if it is an integer that is not well written. -/
structure Torn (text : String) : Prop where
  tokens : ∃ mark word others, text.toList[1]? = some mark ∧
    Token.scan 0 text.toList = ⟨.integer, "0", ⟨0, 1⟩⟩ :: word :: others ∧
    word.kind = .identifier ∧ word.start = 1 ∧ word.literal.toList.head? = some mark ∧
    ∀ token ∈ others, token.kind = .identifier ∨ token.kind = .integer
  statements : (parse text).program.statements =
    (Token.scan 0 text.toList).filterMap Token.leafStatement?
  diagnostics : (parse text).diagnostics =
    (Token.scan 0 text.toList).filterMap Token.leafDiagnostic?

namespace Torn

variable {text : String} {n : Nat}

/-- What is torn makes two statements at least. -/
theorem not_parsesTo (h : Torn text) :
    ¬ ParsesTo text n := by
  rintro ⟨_, token, _, _, single⟩
  obtain ⟨_, word, others, _, tokens, name, _⟩ := h.tokens
  have zero : Token.leafStatement? ⟨.integer, "0", ⟨0, 1⟩⟩ =
      some (.expression ⟨.integer, "0", ⟨0, 1⟩⟩ (.integer ⟨.integer, "0", ⟨0, 1⟩⟩ 0)) := by
    rfl
  have second : word.leafStatement? =
      some (.expression word (.identifier ⟨word, word.literal⟩)) := by
    rw [Token.leafStatement?, Token.leaf?, name]
    rfl
  rw [h.statements, tokens, List.filterMap_cons_some zero,
    List.filterMap_cons_some second] at single
  cases single

/-- The letter of a base begins a word, behind the zero. -/
theorem of_marked {base : Nat} (written : Integer.Written n text.toList)
    (marked : Integer.marked? text.toList = some base) :
    Torn text := by
  have kinds := Token.kind_of_letters written.isNumber_or_mem_letters
  obtain ⟨statements, diagnostics⟩ := parse_leaves text fun token mem =>
    Token.isSome_leaf? (kinds token mem)
  refine ⟨?_, statements, diagnostics⟩
  obtain ⟨mark, cs, whole, isMark⟩ := Integer.marked?_eq_some_iff.mp marked
  have isWordMark : isWord mark :=
    Integer.isWord_of_mem_letters (Integer.mem_letters_of_mark isMark)
  have zero : Lexeme.Occurs .integer ['0'] (mark :: cs) := by
    refine .integer (List.cons_ne_nil _ _) (List.forall_mem_singleton.mpr (by decide)) ?_
    rintro c ⟨⟩
    refine ⟨Bool.eq_false_iff.mp (isNumber_of_isWord isWordMark), ?_⟩
    rintro rfl
    exact absurd isWordMark (by decide)
  obtain ⟨word, others, behind, isWordKind, start, first⟩ :=
    @Token.scan_of_isWord (0 + byteLength ['0']) mark isWordMark cs
  have tokens : Token.scan 0 text.toList = ⟨.integer, "0", ⟨0, 1⟩⟩ :: word :: others := by
    rw [whole, ← behind]
    exact Token.scan_of_occurs zero
  rw [tokens] at kinds
  have name : word.kind = .identifier := by
    rcases kinds word (List.mem_cons_of_mem _ List.mem_cons_self) with name | integer
    · exact name
    · rw [integer] at isWordKind
      exact absurd isWordKind (by decide)
  refine ⟨mark, word, others, ?_, tokens, name, start, first, ?_⟩
  · rw [whole]
    rfl
  · exact fun token mem => kinds token (List.mem_cons_of_mem _ (List.mem_cons_of_mem _ mem))

end Torn

/-- A run of number characters is parsed to the number that it is converted to. -/
theorem parsesTo_of_isNumber {n : Nat} {text : String} (nonempty : text.toList ≠ [])
    (all : ∀ c ∈ text.toList, isNumber c) (value : Integer.parse text = .ok n) :
    ParsesTo text n := by
  have occurs : Lexeme.Occurs .integer text.toList [] := .integer nonempty all (by simp)
  have tokens : Token.scan 0 text.toList =
      [⟨.integer, text, ⟨0, 0 + byteLength text.toList⟩⟩] := by
    have scanned := @Token.scan_of_occurs 0 _ _ _ occurs
    rwa [List.append_nil, Token.scan_nil, String.ofList_toList] at scanned
  generalize (⟨0, 0 + byteLength text.toList⟩ : Span) = span at tokens
  have leaf : Token.leaf? ⟨.integer, text, span⟩ =
      some (.ok (.integer ⟨.integer, text, span⟩ n)) := by
    simp only [Token.leaf?, Handlers.standard, value]
  have single : ∀ token ∈ Token.scan 0 text.toList, token.leaf?.isSome := by
    rw [tokens]
    exact List.forall_mem_singleton.mpr (leaf ▸ rfl)
  obtain ⟨statements, diagnostics⟩ := parse_leaves text single
  refine ⟨?_, ⟨.integer, text, span⟩, rfl, rfl, ?_⟩
  · rw [diagnostics, tokens, List.filterMap_cons_none, List.filterMap_nil]
    rw [Token.leafDiagnostic?, leaf]
  · rw [statements, tokens, List.filterMap_cons_some, List.filterMap_nil]
    rw [Token.leafStatement?, leaf]

/-- A written number that fits is converted to the number.  It is parsed to the number exactly if it
is written without the letter of a base, and it is torn if it is not. -/
theorem parse_written {n : Nat} {text : String} (written : Integer.Written n text.toList)
    (fits : n ≤ 2 ^ 63 - 1) :
    Integer.parse text = .ok n ∧
      (ParsesTo text n ↔ Integer.marked? text.toList = none) ∧
      (¬ ParsesTo text n → Torn text) := by
  have value : Integer.parse text = .ok n := written.parse_eq fits
  have torn {base : Nat} (marked : Integer.marked? text.toList = some base) : Torn text :=
    .of_marked written marked
  have unmarked (h : Integer.marked? text.toList = none) : ParsesTo text n := by
    obtain ⟨nonempty, all⟩ := written.isNumber h
    exact parsesTo_of_isNumber nonempty all value
  refine ⟨value, ⟨?_, unmarked⟩, ?_⟩
  · intro parses
    rw [Option.eq_none_iff_forall_ne_some]
    intro base marked
    exact (torn marked).not_parsesTo parses
  · intro not
    cases marked : Integer.marked? text.toList with
    | none =>
        exact absurd (unmarked marked) not
    | some base =>
        exact torn marked

theorem Integer.written_hexadecimal :
    Written 31 "0x1F".toList := by
  have one : IsDigit 16 '1' 1 := ⟨by decide, .inl rfl⟩
  have fifteen : IsDigit 16 'F' 15 := ⟨by decide, .inr rfl⟩
  exact @Written.marked 'x' 16 _ _ rfl (.cons one (.cons fifteen .nil)) (List.cons_ne_nil _ _)

/-- A hexadecimal number is converted, but it is torn where it is parsed. -/
theorem parse_written_hexadecimal :
    Integer.Written 31 "0x1F".toList ∧ 31 ≤ 2 ^ 63 - 1 ∧ Integer.parse "0x1F" = .ok 31 ∧
      (ParsesTo "0x1F" 31 ↔ Integer.marked? "0x1F".toList = none) ∧
      (¬ ParsesTo "0x1F" 31 → Torn "0x1F") := by
  have fits : 31 ≤ 2 ^ 63 - 1 := by
    decide
  exact ⟨Integer.written_hexadecimal, fits, parse_written Integer.written_hexadecimal fits⟩

/-- There is a written number that is parsed to four statements. -/
theorem exists_written_not_parsesTo :
    ∃ n text, n ≤ 2 ^ 63 - 1 ∧ Integer.Written n text.toList ∧ ¬ ParsesTo text n := by
  refine ⟨31, "0x1F", by decide, Integer.written_hexadecimal, ?_⟩
  rintro ⟨_, token, _, _, single⟩
  have four : (parse "0x1F").program.statements.length = 4 := by
    decide +kernel
  rw [single] at four
  cases four

end LetLang
