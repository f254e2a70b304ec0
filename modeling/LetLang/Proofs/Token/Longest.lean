import LetLang.Proofs.Text.Classes
import LetLang.Proofs.Token.Spelling

/-!
# The lexical grammar

**Input.** A source text.

**Grammar.** A text is cut into lexemes with blanks between them.  `Lexeme.Occurs` says which
lexemes there are and what may not follow them: a run of characters of one class is not followed
by another character of the class, a sign that may begin a longer one is not followed by the rest
of that, and an integer is not followed by a point.

**Result.** `Token.segments_iff`: every text can be cut in exactly one way, and its tokens are the
pieces.  Since the classes of characters are apart, the first character of a lexeme decides which
clause of the grammar it falls under, and what may not follow decides where it ends.
-/

namespace LetLang

open Text

namespace Kind

/-- A word has the kind that is reserved for it, or it is a name. -/
def Classifies (kind : Kind) (word : String) : Prop :=
  (word, kind) ∈ reserved ∨ (kind = identifier ∧ ∀ entry ∈ reserved, entry.1 ≠ word)

theorem classifies_iff {kind : Kind} {word : String} :
    kind.Classifies word ↔ kind = ofWord word := by
  constructor
  · rintro (isReserved | ⟨rfl, isName⟩)
    · have known : ∀ entry ∈ reserved, entry.2 = ofWord entry.1 := by decide
      exact known (word, kind) isReserved
    · have unknown : reserved.lookup word = none := by
        rw [List.lookup_eq_none_iff]
        intro entry mem
        simpa using (isName entry mem).symm
      rw [ofWord, unknown]
      rfl
  · rintro rfl
    cases found : reserved.lookup word with
    | none =>
        refine .inr ⟨by rw [ofWord, found]; rfl, fun entry mem same => ?_⟩
        simpa [same] using List.lookup_eq_none_iff.mp found entry mem
    | some kind =>
        obtain ⟨before, behind, same, _⟩ := List.lookup_eq_some_iff.mp found
        refine .inl ?_
        rw [ofWord, found, same]
        simp

theorem fuses_of_mem_operators {kind : Kind} {c : Char}
    (mem : kind ∈ operators) (alone : kind ∈ [assign, bang] → c ≠ '=') :
    kind.fuses c = false := by
  cases kind <;> first
    | rfl
    | exact absurd mem (by decide)
    | exact beq_eq_false_iff_ne.mpr (alone (by decide))

theorem ne_equals_of_fuses {kind : Kind} {c : Char}
    (mem : kind ∈ [assign, bang]) (h : kind.fuses c = false) :
    c ≠ '=' := by
  cases kind <;> first
    | exact absurd mem (by decide)
    | exact beq_eq_false_iff_ne.mp h

end Kind

namespace Lexeme

/-- Some text is a lexeme of a kind where it stands, with `rest` behind it. -/
inductive Occurs : Kind → List Char → List Char → Prop
  | sign {kind : Kind} {rest : List Char} :
      kind ∈ Kind.operators →
      (kind ∈ [.assign, .bang] → ∀ c ∈ rest.head?, c ≠ '=') →
      Occurs kind kind.name.toList rest
  | word {kind : Kind} {text rest : List Char} :
      text ≠ [] → (∀ c ∈ text, isWord c) →
      (∀ c ∈ rest.head?, ¬ isWord c) →
      kind.Classifies (String.ofList text) →
      Occurs kind text rest
  | integer {digits rest : List Char} :
      digits ≠ [] → (∀ c ∈ digits, isNumber c) →
      (∀ c ∈ rest.head?, ¬ isNumber c ∧ c ≠ '.') →
      Occurs .integer digits rest
  | float {digits fraction rest : List Char} :
      digits ≠ [] → (∀ c ∈ digits, isNumber c) → (∀ c ∈ fraction, isNumber c) →
      (∀ c ∈ rest.head?, ¬ isNumber c) →
      Occurs .float (digits ++ '.' :: fraction) rest
  | illegal {c : Char} {rest : List Char} :
      ¬ isBlank c → c ∉ operatorCharacters → ¬ isWord c → ¬ isNumber c →
      Occurs .illegal [c] rest

section Operators

theorem classes_of_mem_operatorCharacters {c : Char} (mem : c ∈ operatorCharacters) :
    isBlank c = false ∧ isWord c = false ∧ isNumber c = false := by
  have all : ∀ c ∈ operatorCharacters,
      isBlank c = false ∧ isWord c = false ∧ isNumber c = false := by
    simp only [operatorCharacters, List.forall_mem_cons, List.not_mem_nil, false_implies,
      implies_true, and_true]
    decide
  exact all c mem

theorem not_mem_operatorCharacters_of_isWord {c : Char} (h : isWord c = true) :
    c ∉ operatorCharacters := by
  intro mem
  rw [(classes_of_mem_operatorCharacters mem).2.1] at h
  cases h

theorem not_mem_operatorCharacters_of_isNumber {c : Char} (h : isNumber c = true) :
    c ∉ operatorCharacters := by
  intro mem
  rw [(classes_of_mem_operatorCharacters mem).2.2] at h
  cases h

theorem head_mem_operatorCharacters {kind : Kind} (mem : kind ∈ Kind.operators) :
    ∀ c ∈ kind.name.toList.head?, c ∈ operatorCharacters := by
  cases kind <;> first
    | exact absurd mem (by decide)
    | (rintro c ⟨⟩
       decide)

end Operators

section Occurs

variable {kind : Kind} {text rest : List Char}

/-- What occurs is spelled so, and does not fuse with what is behind it. -/
theorem Occurs.spells (h : Occurs kind text rest) :
    Spells kind text ∧ ∀ c ∈ rest.head?, kind.fuses c = false := by
  cases h with
  | sign mem alone =>
      refine ⟨.operator (operator?_alone_iff.mpr ⟨mem, rfl⟩), fun c first => ?_⟩
      exact Kind.fuses_of_mem_operators mem (fun either => alone either c first)
  | word nonempty all parted classifies =>
      obtain rfl := Kind.classifies_iff.mp classifies
      rw [Kind.fuses_of_mem_words (Kind.ofWord_mem_words _)]
      constructor
      · cases text with
        | nil =>
            exact absurd rfl nonempty
        | cons c cs =>
            exact .word (not_mem_operatorCharacters_of_isWord (all c List.mem_cons_self)) all
      · exact fun c first => Bool.eq_false_iff.mpr (parted c first)
  | integer nonempty all parted =>
      constructor
      · cases text with
        | nil =>
            exact absurd rfl nonempty
        | cons c cs =>
            have isNumberChar := all c List.mem_cons_self
            exact .integer (not_mem_operatorCharacters_of_isNumber isNumberChar)
              (isWord_of_isNumber isNumberChar) all
      · intro c first
        simpa [Kind.fuses] using parted c first
  | @float digits fraction _ nonempty all all' parted =>
      constructor
      · cases digits with
        | nil =>
            exact absurd rfl nonempty
        | cons c cs =>
            have isNumberChar := all c List.mem_cons_self
            exact .float (not_mem_operatorCharacters_of_isNumber isNumberChar)
              (isWord_of_isNumber isNumberChar) all all'
      · intro c first
        simpa [Kind.fuses] using parted c first
  | illegal notBlank noOperator noWord noNumber =>
      exact ⟨.illegal noOperator (Bool.eq_false_iff.mpr noWord) (Bool.eq_false_iff.mpr noNumber),
        fun _ _ => rfl⟩

theorem Occurs.ne_nil (h : Occurs kind text rest) :
    text ≠ [] := by
  cases h with
  | sign mem =>
      cases kind <;> first
        | exact absurd mem (by decide)
        | exact List.cons_ne_nil _ _
  | word nonempty => exact nonempty
  | integer nonempty => exact nonempty
  | float nonempty => simp
  | illegal => exact List.cons_ne_nil _ _

/-- An operator or a delimiter has one spelling. -/
theorem Occurs.text_eq_name (h : Occurs kind text rest) (mem : kind ∈ Kind.operators) :
    text = kind.name.toList := by
  cases h with
  | sign => rfl
  | word nonempty all parted classifies =>
      obtain rfl := Kind.classifies_iff.mp classifies
      have apart : ∀ kind ∈ Kind.words, kind ∉ Kind.operators := by decide
      exact absurd mem (apart _ (Kind.ofWord_mem_words _))
  | integer | float | illegal =>
      exact absurd mem (by decide)

/-- What occurs begins with a character that is not blank. -/
theorem Occurs.notBlank (h : Occurs kind text rest) :
    ∀ c ∈ text.head?, isBlank c = false := by
  intro c first
  rw [← Bool.not_eq_true]
  intro blank
  have noOperator : c ∉ operatorCharacters := by
    intro mem
    rw [(classes_of_mem_operatorCharacters mem).1] at blank
    cases blank
  have noWord := isWord_of_isBlank blank
  have noNumber := isNumber_of_isBlank blank
  have mem := List.mem_of_mem_head? first
  cases h with
  | sign isOperator =>
      exact noOperator (head_mem_operatorCharacters isOperator c first)
  | word _ all =>
      rw [all c mem] at noWord
      cases noWord
  | integer _ all =>
      rw [all c mem] at noNumber
      cases noNumber
  | @float digits _ _ nonempty all =>
      cases digits with
      | nil =>
          exact nonempty rfl
      | cons d ds =>
          cases first
          rw [all _ List.mem_cons_self] at noNumber
          cases noNumber
  | illegal notBlank =>
      cases first
      exact notBlank blank

/-- Text that is spelled as a lexeme occurs as one before all that does not fuse with it. -/
theorem Spells.occurs
    (h : Spells kind text) (parted : ∀ c ∈ rest.head?, kind.fuses c = false)
    (notBlank : ∀ c ∈ text.head?, isBlank c = false) :
    Occurs kind text rest := by
  cases h with
  | operator alone =>
      obtain ⟨mem, rfl⟩ := operator?_alone_iff.mp alone
      exact .sign mem (fun either c first => Kind.ne_equals_of_fuses either (parted c first))
  | word _ all =>
      rw [Kind.fuses_of_mem_words (Kind.ofWord_mem_words _)] at parted
      refine .word (List.cons_ne_nil _ _) all ?_ (Kind.classifies_iff.mpr rfl)
      exact fun c first => Bool.eq_false_iff.mp (parted c first)
  | integer _ _ all =>
      refine .integer (List.cons_ne_nil _ _) all ?_
      intro c first
      simpa [Kind.fuses] using parted c first
  | float _ _ all all' =>
      refine .float (List.cons_ne_nil _ _) all all' ?_
      intro c first
      simpa [Kind.fuses] using parted c first
  | @illegal c noOperator noWord noNumber =>
      exact .illegal (Bool.eq_false_iff.mp (notBlank c rfl)) noOperator
        (Bool.eq_false_iff.mp noWord) (Bool.eq_false_iff.mp noNumber)

theorem parted_of_dropWhile (p : Char → Bool) (text : List Char) :
    ∀ c ∈ (text.dropWhile p).head?, p c = false := by
  intro c first
  have stopped := List.head?_dropWhile_not p text
  rw [Option.mem_def.mp first] at stopped
  exact stopped

theorem parted_of_number (text : List Char) :
    ∀ c ∈ (number text).rest.head?, (number text).kind.fuses c = false := by
  have parted := parted_of_dropWhile isNumber text
  unfold number
  split
  · exact parted_of_dropWhile isNumber _
  · rename_i noPoint
    intro c first
    have noNumber := parted c first
    have notPoint : c ≠ '.' := by
      obtain ⟨more, same⟩ := List.head?_eq_some_iff.mp first
      rintro rfl
      exact noPoint more same
    simp [Kind.fuses, noNumber, notPoint]

theorem eq_nil_of_first?_eq_none (h : first? text = none) :
    text = [] := by
  cases text with
  | nil =>
      rfl
  | cons c cs =>
      simp only [first?] at h
      split at h
      · cases h
      · split at h
        · cases h
        · split at h <;> cases h

/-- What is behind the first lexeme of a text does not fuse with it. -/
theorem parted_of_first? {lexeme : Lexeme} (h : first? text = some lexeme) :
    ∀ c ∈ lexeme.rest.head?, lexeme.kind.fuses c = false := by
  cases text with
  | nil =>
      cases h
  | cons c cs =>
      simp only [first?] at h
      split at h
      · rename_i found
        cases h
        exact (operator?_eq_some_iff.mp found).2.2.2
      · split at h
        · cases h
          simp only [word, Kind.fuses_of_mem_words (Kind.ofWord_mem_words _)]
          exact parted_of_dropWhile isWord _
        · split at h
          · cases h
            exact parted_of_number _
          · cases h
            exact fun _ _ => rfl

end Occurs

end Lexeme

namespace Token

/-- Some text, from an offset on, is cut into tokens with blanks between them, each of which occurs
where it stands. -/
inductive Segments : Nat → List Char → List Token → Prop
  | gap {offset : Nat} {gap : List Char} :
      (∀ c ∈ gap, isBlank c) →
      Segments offset gap []
  | token
      {offset : Nat} {gap text rest : List Char} {kind : Kind} {tokens : List Token} :
      (∀ c ∈ gap, isBlank c) →
      Lexeme.Occurs kind text rest →
      Segments (offset + byteLength gap + byteLength text) rest tokens →
      Segments offset (gap ++ (text ++ rest))
        (⟨kind, String.ofList text,
          ⟨offset + byteLength gap, offset + byteLength gap + byteLength text⟩⟩ :: tokens)

section Segments

variable {offset : Nat} {text : List Char} {tokens : List Token}

/-- The first token of a text occurs behind blanks, and the rest of the text behind it. -/
theorem exists_parts_of_next?
    {token : Token} {rest : List Char} (h : next? offset text = some (token, rest)) :
    ∃ kind blanks piece, text = blanks ++ (piece ++ rest) ∧ (∀ c ∈ blanks, isBlank c) ∧
      Lexeme.Occurs kind piece rest ∧
      token = ⟨kind, String.ofList piece,
        ⟨offset + byteLength blanks, offset + byteLength blanks + byteLength piece⟩⟩ := by
  simp only [next?, Option.map_eq_some_iff] at h
  obtain ⟨lexeme, begins, same⟩ := h
  cases same
  obtain ⟨spells, whole⟩ := Lexeme.spells_of_first? begins
  have clear := Lexeme.parted_of_dropWhile isBlank text
  rw [whole] at clear
  have occurs : Lexeme.Occurs lexeme.kind lexeme.text lexeme.rest :=
    spells.occurs (Lexeme.parted_of_first? begins)
      (fun c first => clear c (by rw [List.head?_append, Option.mem_def.mp first]; rfl))
  refine ⟨lexeme.kind, text.takeWhile isBlank, lexeme.text, ?_, ?_, occurs, rfl⟩
  · rw [← whole, List.takeWhile_append_dropWhile]
  · exact fun _ => Lexeme.of_mem_takeWhile

/-- Passing a token leaves the end of the text where it is. -/
theorem stop_of_next?
    {token : Token} {rest : List Char} (h : next? offset text = some (token, rest)) :
    token.stop + byteLength rest = offset + byteLength text := by
  obtain ⟨kind, blanks, piece, rfl, _, _, rfl⟩ := exists_parts_of_next? h
  simp only [stop, byteLength_append]
  omega

/-- A text without tokens is blank. -/
theorem blank_of_next?_eq_none (h : next? offset text = none) :
    ∀ c ∈ text, isBlank c := by
  have passed : text.dropWhile isBlank = [] := by
    rw [next?, Option.map_eq_none_iff] at h
    exact Lexeme.eq_nil_of_first?_eq_none h
  have whole := List.takeWhile_append_dropWhile (p := isBlank) (l := text)
  rw [passed, List.append_nil] at whole
  rw [← whole]
  exact fun _ => Lexeme.of_mem_takeWhile

/-- The tokens of a text are a cut of it. -/
theorem segments_scan (offset : Nat) (text : List Char) :
    Segments offset text (scan offset text) := by
  induction offset, text using scan.induct with
  | case1 offset text found =>
      rw [scan_of_next?_eq_none found]
      exact .gap (blank_of_next?_eq_none found)
  | case2 offset text first rest found ih =>
      rw [scan_of_next? found]
      obtain ⟨kind, blanks, piece, rfl, blank, occurs, rfl⟩ := exists_parts_of_next? found
      exact .token blank occurs ih

/-- A cut of a text is made of the tokens of it. -/
theorem Segments.eq_scan (h : Segments offset text tokens) :
    tokens = scan offset text := by
  induction h with
  | @gap offset gap blank =>
      rw [← List.append_nil gap, scan_blanks blank, scan_nil]
  | token blank occurs _ ih =>
      obtain ⟨spells, parted⟩ := occurs.spells
      rw [scan_blanks blank, Spelled.scan_append ⟨spells, occurs.notBlank⟩ parted, ih]

/-- A text can be cut in exactly one way, and its tokens are the pieces. -/
theorem segments_iff (source : String) (tokens : List Token) :
    Segments 0 source.toList tokens ↔ tokens = (tokenize source).dropLast := by
  rw [tokenize_dropLast]
  constructor
  · exact Segments.eq_scan
  · rintro rfl
    exact segments_scan 0 source.toList

example : (tokenize "!!==!= 1..2").map Token.kind =
    [.bang, .notEqual, .assign, .notEqual, .float, .illegal, .integer, .eof] := by
  decide +kernel

/-- A reserved word is one only as a whole word. -/
example : (tokenize "let fn return if else true false letter").map Token.kind =
    [.letWord, .fnWord, .returnWord, .ifWord, .elseWord, .trueWord, .falseWord, .identifier,
      .eof] := by
  decide +kernel

end Segments

end Token
end LetLang
