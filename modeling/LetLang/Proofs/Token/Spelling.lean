import LetLang.Token.Scan

/-!
# How tokens are spelled

The text of a token says what token it is: scanned alone, it gives the token back.  It still does
so with other text behind it, unless that text begins with a character that fuses with the token.
A word fuses with a word character, a number with a number character, and an integer also with a
point; `=` and `!` fuse with another `=`.

So a text can be put together from spelled tokens, and the scan of the whole is known token by
token.
-/

namespace LetLang

open Text

/-- A character behind a token of a kind would become a part of it. -/
def Kind.fuses : Kind → Char → Bool
  | .identifier, c => isWord c
  | .letWord, c => isWord c
  | .fnWord, c => isWord c
  | .returnWord, c => isWord c
  | .ifWord, c => isWord c
  | .elseWord, c => isWord c
  | .trueWord, c => isWord c
  | .falseWord, c => isWord c
  | .integer, c => isNumber c || c == '.'
  | .float, c => isNumber c
  | .assign, c => c == '='
  | .bang, c => c == '='
  | _, _ => false

/-- The kinds of operators and delimiters, whose names are their texts. -/
def Kind.operators : List Kind :=
  [.assign, .equal, .bang, .notEqual, .less, .greater, .plus, .minus, .star, .slash, .comma,
    .semicolon, .openParen, .closeParen, .openBrace, .closeBrace]

/-- The kinds of words. -/
def Kind.words : List Kind :=
  [.identifier, .letWord, .fnWord, .returnWord, .ifWord, .elseWord, .trueWord, .falseWord]

theorem Kind.ofWord_mem_words (word : String) :
    Kind.ofWord word ∈ Kind.words := by
  unfold Kind.ofWord
  cases found : Kind.reserved.lookup word with
  | none =>
      decide
  | some kind =>
      have reserved : ∀ entry ∈ Kind.reserved, entry.2 ∈ Kind.words := by decide
      obtain ⟨before, behind, same, _⟩ := List.lookup_eq_some_iff.mp found
      exact reserved (word, kind) (by simp [same])

theorem Kind.fuses_of_mem_words {kind : Kind} (mem : kind ∈ Kind.words) :
    kind.fuses = isWord := by
  simp only [Kind.words, List.mem_cons, List.not_mem_nil, or_false] at mem
  rcases mem with rfl | rfl | rfl | rfl | rfl | rfl | rfl | rfl <;> rfl

namespace Lexeme

section Operators

/-- The characters with which an operator or a delimiter begins. -/
def operatorCharacters : List Char :=
  ['=', '!', '+', '-', '*', '/', '<', '>', ',', ';', '(', ')', '\x7b', '\x7d']

theorem operator?_eq_none_iff {c : Char} {cs : List Char} :
    operator? (c :: cs) = none ↔ c ∉ operatorCharacters := by
  rw [operator?, Option.map_eq_none_iff]
  unfold operatorKind? operatorCharacters
  split <;> simp_all

/-- A sign that may begin a longer operator is taken alone, unless it is followed by `=`. -/
theorem operatorKind?_sign
    {rest : List Char} (parted : ∀ c ∈ rest.head?, (c == '=') = false) :
    operatorKind? ('=' :: rest) = some .assign ∧ operatorKind? ('!' :: rest) = some .bang := by
  cases rest with
  | nil =>
      exact ⟨rfl, rfl⟩
  | cons c cs =>
      have other : c ≠ '=' := by simpa using parted c
      simp [operatorKind?, other]

/-- An operator is found exactly where its name stands, without a character behind it that fuses
with it. -/
theorem operatorKind?_eq_some_iff {kind : Kind} {text : List Char} :
    operatorKind? text = some kind ↔
      kind ∈ Kind.operators ∧
        ∃ rest, text = kind.name.toList ++ rest ∧ ∀ c ∈ rest.head?, kind.fuses c = false := by
  constructor
  · intro h
    unfold operatorKind? at h
    split at h <;> cases h <;> refine ⟨by decide, _, rfl, ?_⟩ <;> intro c first <;> try rfl
    -- Left are the two signs, which `=` has not followed in an earlier branch.
    all_goals
      rename_i noLonger
      obtain ⟨more, rfl⟩ := List.head?_eq_some_iff.mp first
      exact beq_eq_false_iff_ne.mpr fun same => noLonger more (by rw [same])
  · rintro ⟨mem, rest, rfl, parted⟩
    cases kind <;> first
      | exact absurd mem (by decide)
      | exact (operatorKind?_sign parted).1
      | exact (operatorKind?_sign parted).2
      | rfl

/-- An operator takes its name, and leaves text that does not fuse with it. -/
theorem operator?_eq_some_iff {kind : Kind} {whole text rest : List Char} :
    operator? whole = some ⟨kind, text, rest⟩ ↔
      kind ∈ Kind.operators ∧ text = kind.name.toList ∧ whole = text ++ rest ∧
        ∀ c ∈ rest.head?, kind.fuses c = false := by
  rw [operator?, Option.map_eq_some_iff]
  constructor
  · rintro ⟨kind, found, same⟩
    cases same
    obtain ⟨mem, rest, rfl, parted⟩ := operatorKind?_eq_some_iff.mp found
    rw [List.drop_left]
    exact ⟨mem, rfl, rfl, parted⟩
  · rintro ⟨mem, rfl, rfl, parted⟩
    refine ⟨kind, operatorKind?_eq_some_iff.mpr ⟨mem, rest, rfl, parted⟩, ?_⟩
    rw [List.drop_left]

/-- An operator that is all of a text is the name of its kind. -/
theorem operator?_alone_iff {kind : Kind} {text : List Char} :
    operator? text = some ⟨kind, text, []⟩ ↔ kind ∈ Kind.operators ∧ text = kind.name.toList := by
  rw [operator?_eq_some_iff]
  constructor
  · exact fun h => ⟨h.1, h.2.1⟩
  · exact fun h => ⟨h.1, h.2, (List.append_nil text).symm, by simp⟩

end Operators

section First

theorem first?_of_operator?
    {text : List Char} {lexeme : Lexeme}
    (h : operator? text = some lexeme) :
    first? text = some lexeme := by
  cases text with
  | nil =>
      cases h
  | cons c cs =>
      simp only [first?, h]

theorem first?_of_isWord
    {c : Char} {cs : List Char}
    (noOperator : c ∉ operatorCharacters) (isWordChar : isWord c) :
    first? (c :: cs) = some (word (c :: cs)) := by
  simp only [first?, operator?_eq_none_iff.mpr noOperator, isWordChar, if_true]

theorem first?_of_isNumber
    {c : Char} {cs : List Char}
    (noOperator : c ∉ operatorCharacters) (noWord : isWord c = false) (isNumberChar : isNumber c) :
    first? (c :: cs) = some (number (c :: cs)) := by
  simp only [first?, operator?_eq_none_iff.mpr noOperator, noWord, isNumberChar, if_true]
  rfl

theorem first?_of_other
    {c : Char} {cs : List Char}
    (noOperator : c ∉ operatorCharacters) (noWord : isWord c = false)
    (noNumber : isNumber c = false) :
    first? (c :: cs) = some ⟨.illegal, [c], cs⟩ := by
  simp only [first?, operator?_eq_none_iff.mpr noOperator, noWord, noNumber]
  rfl

end First

section Parts

variable {letters digits fraction rest : List Char}

theorem of_mem_takeWhile {p : Char → Bool} {text : List Char} {c : Char}
    (mem : c ∈ text.takeWhile p) :
    p c :=
  List.all_eq_true.mp List.all_takeWhile c mem

theorem takeWhile_append_of_parted {p : Char → Bool}
    (all : ∀ c ∈ letters, p c) (parted : ∀ c ∈ rest.head?, p c = false) :
    (letters ++ rest).takeWhile p = letters ∧ (letters ++ rest).dropWhile p = rest := by
  rw [List.takeWhile_append_of_pos all, List.dropWhile_append_of_pos all]
  cases rest with
  | nil =>
      simp
  | cons c cs =>
      simp [parted c rfl]

theorem word_append
    (all : ∀ c ∈ letters, isWord c) (parted : ∀ c ∈ rest.head?, isWord c = false) :
    word (letters ++ rest) = ⟨.ofWord (String.ofList letters), letters, rest⟩ := by
  obtain ⟨taken, dropped⟩ := takeWhile_append_of_parted all parted
  rw [word, taken, dropped]

theorem number_append_of_integer
    (all : ∀ c ∈ digits, isNumber c) (parted : ∀ c ∈ rest.head?, isNumber c = false ∧ c ≠ '.') :
    number (digits ++ rest) = ⟨.integer, digits, rest⟩ := by
  obtain ⟨taken, dropped⟩ :=
    takeWhile_append_of_parted all (fun c mem => (parted c mem).1)
  rw [number, taken, dropped]
  split
  · exact absurd rfl (parted '.' rfl).2
  · rfl

theorem number_append_of_float
    (all : ∀ c ∈ digits, isNumber c) (all' : ∀ c ∈ fraction, isNumber c)
    (parted : ∀ c ∈ rest.head?, isNumber c = false) :
    number (digits ++ '.' :: (fraction ++ rest)) = ⟨.float, digits ++ '.' :: fraction, rest⟩ := by
  have point : ∀ c ∈ ('.' :: (fraction ++ rest)).head?, isNumber c = false := by
    intro c mem
    cases mem
    decide
  obtain ⟨taken, dropped⟩ := takeWhile_append_of_parted all point
  obtain ⟨taken', dropped'⟩ := takeWhile_append_of_parted all' parted
  rw [number, taken, dropped]
  simp only [taken', dropped']

end Parts

/-- Some text is, as a whole, a lexeme of a kind. -/
inductive Spells : Kind → List Char → Prop
  | operator {kind : Kind} {text : List Char} :
      operator? text = some ⟨kind, text, []⟩ →
      Spells kind text
  | word {c : Char} {cs : List Char} :
      c ∉ operatorCharacters → (∀ d ∈ c :: cs, isWord d) →
      Spells (.ofWord (String.ofList (c :: cs))) (c :: cs)
  | integer {c : Char} {cs : List Char} :
      c ∉ operatorCharacters → isWord c = false → (∀ d ∈ c :: cs, isNumber d) →
      Spells .integer (c :: cs)
  | float {c : Char} {cs fraction : List Char} :
      c ∉ operatorCharacters → isWord c = false → (∀ d ∈ c :: cs, isNumber d) →
      (∀ d ∈ fraction, isNumber d) →
      Spells .float (c :: cs ++ '.' :: fraction)
  | illegal {c : Char} :
      c ∉ operatorCharacters → isWord c = false → isNumber c = false →
      Spells .illegal [c]

namespace Spells

variable {kind : Kind} {text rest : List Char}

/-- Text that does not fuse with a lexeme is left behind it. -/
theorem first?_append
    (h : Spells kind text) (parted : ∀ c ∈ rest.head?, kind.fuses c = false) :
    first? (text ++ rest) = some ⟨kind, text, rest⟩ := by
  cases h with
  | operator alone =>
      obtain ⟨mem, name⟩ := operator?_alone_iff.mp alone
      exact first?_of_operator? (operator?_eq_some_iff.mpr ⟨mem, name, rfl, parted⟩)
  | word noOperator all =>
      rw [Kind.fuses_of_mem_words (Kind.ofWord_mem_words _)] at parted
      rw [List.cons_append, first?_of_isWord noOperator (all _ List.mem_cons_self),
        ← List.cons_append, word_append all parted]
  | integer noOperator noWord all =>
      rw [List.cons_append, first?_of_isNumber noOperator noWord (all _ List.mem_cons_self),
        ← List.cons_append, number_append_of_integer all]
      intro c mem
      simpa [Kind.fuses] using parted c mem
  | float noOperator noWord all all' =>
      rw [List.append_assoc, List.cons_append, List.cons_append,
        first?_of_isNumber noOperator noWord (all _ List.mem_cons_self),
        ← List.cons_append, number_append_of_float all all' parted]
  | illegal noOperator noWord noNumber =>
      exact first?_of_other noOperator noWord noNumber

theorem ne_eof (h : Spells kind text) :
    kind ≠ .eof := by
  cases h with
  | operator alone =>
      rintro rfl
      exact absurd (operator?_alone_iff.mp alone).1 (by decide)
  | word noOperator all =>
      intro same
      exact absurd (same ▸ Kind.ofWord_mem_words _ : Kind.eof ∈ Kind.words) (by decide)
  | integer | float | illegal =>
      decide

/-- An opening brace has one spelling. -/
theorem text_of_openBrace (h : Spells .openBrace text) :
    text = ['\x7b'] := by
  generalize same : Kind.openBrace = kind at h
  cases h with
  | operator alone =>
      subst same
      exact (operator?_alone_iff.mp alone).2
  | word noOperator all =>
      exact absurd (same ▸ Kind.ofWord_mem_words _ : Kind.openBrace ∈ Kind.words) (by decide)
  | integer | float | illegal =>
      cases same

end Spells

theorem spells_number
    {c : Char} {cs : List Char}
    (noOperator : c ∉ operatorCharacters) (noWord : isWord c = false) (isNumberChar : isNumber c) :
    Spells (number (c :: cs)).kind (number (c :: cs)).text ∧
      c :: cs = (number (c :: cs)).text ++ (number (c :: cs)).rest := by
  have digits : (c :: cs).takeWhile isNumber = c :: cs.takeWhile isNumber := by
    rw [List.takeWhile_cons, isNumberChar, if_pos rfl]
  have all : ∀ d ∈ c :: cs.takeWhile isNumber, isNumber d :=
    digits ▸ fun _ => of_mem_takeWhile
  have whole : c :: cs = (c :: cs.takeWhile isNumber) ++ (c :: cs).dropWhile isNumber := by
    rw [← digits, List.takeWhile_append_dropWhile]
  unfold number
  rw [digits]
  split
  · rename_i behind point
    refine ⟨.float noOperator noWord all (fun _ => of_mem_takeWhile), ?_⟩
    rw [point] at whole
    simpa using whole
  · exact ⟨.integer noOperator noWord all, whole⟩

/-- The first lexeme of a text is spelled by the characters that it has taken. -/
theorem spells_of_first?
    {text : List Char} {lexeme : Lexeme}
    (h : first? text = some lexeme) :
    Spells lexeme.kind lexeme.text ∧ text = lexeme.text ++ lexeme.rest := by
  cases text with
  | nil =>
      cases h
  | cons c cs =>
      cases found : operator? (c :: cs) with
      | some lexeme' =>
          cases (first?_of_operator? found).symm.trans h
          obtain ⟨mem, name, whole, _⟩ := operator?_eq_some_iff.mp found
          exact ⟨.operator (operator?_alone_iff.mpr ⟨mem, name⟩), whole⟩
      | none =>
          have noOperator := operator?_eq_none_iff.mp found
          by_cases isWordChar : isWord c
          · cases (first?_of_isWord noOperator isWordChar).symm.trans h
            have letters : (c :: cs).takeWhile isWord = c :: cs.takeWhile isWord := by
              rw [List.takeWhile_cons, isWordChar, if_pos rfl]
            refine ⟨?_, List.takeWhile_append_dropWhile.symm⟩
            simp only [word, letters]
            exact .word noOperator (letters ▸ fun _ => of_mem_takeWhile)
          · have noWord := Bool.eq_false_iff.mpr isWordChar
            by_cases isNumberChar : isNumber c
            · cases (first?_of_isNumber noOperator noWord isNumberChar).symm.trans h
              exact spells_number noOperator noWord isNumberChar
            · have noNumber := Bool.eq_false_iff.mpr isNumberChar
              cases (first?_of_other noOperator noWord noNumber).symm.trans h
              exact ⟨.illegal noOperator noWord noNumber, rfl⟩

end Lexeme
namespace Token

/-- Some text is, as a whole, the text of a token of a kind. -/
structure Spelled (kind : Kind) (text : List Char) : Prop where
  spells : Lexeme.Spells kind text
  notBlank : ∀ c ∈ text.head?, isBlank c = false

section Scan

variable {offset : Nat} {text rest : List Char} {token : Token}

theorem scan_of_next?_eq_none (h : next? offset text = none) :
    scan offset text = [] := by
  rw [scan]
  split
  · rfl
  · rename_i found
    cases h.symm.trans found

theorem scan_of_next? (h : next? offset text = some (token, rest)) :
    scan offset text = token :: scan token.stop rest := by
  rw [scan]
  split
  · rename_i found
    cases h.symm.trans found
  · rename_i found
    cases h.symm.trans found
    rfl

theorem scan_nil :
    scan offset [] = [] :=
  scan_of_next?_eq_none rfl

/-- A blank is passed. -/
theorem scan_blank {c : Char} (blank : isBlank c) :
    scan offset (c :: text) = scan (offset + c.utf8Size) text := by
  have same : next? offset (c :: text) = next? (offset + c.utf8Size) text := by
    simp [next?, blank, Nat.add_assoc]
  cases found : next? (offset + c.utf8Size) text with
  | none =>
      rw [scan_of_next?_eq_none found, scan_of_next?_eq_none (same.trans found)]
  | some pair =>
      rw [scan_of_next? found, scan_of_next? (same.trans found)]

/-- Blanks are passed. -/
theorem scan_blanks {blanks : List Char} (h : ∀ c ∈ blanks, isBlank c) :
    scan offset (blanks ++ text) = scan (offset + byteLength blanks) text := by
  induction blanks generalizing offset with
  | nil =>
      rfl
  | cons c cs ih =>
      obtain ⟨blank, others⟩ := List.forall_mem_cons.mp h
      rw [List.cons_append, scan_blank blank, ih others, byteLength_cons, Nat.add_assoc]

/-- Spelled text becomes a token, and what does not fuse with it is scanned behind it. -/
theorem Spelled.scan_append
    {kind : Kind}
    (h : Spelled kind text) (parted : ∀ c ∈ rest.head?, kind.fuses c = false) :
    scan offset (text ++ rest) =
      ⟨kind, String.ofList text, ⟨offset, offset + byteLength text⟩⟩ ::
        scan (offset + byteLength text) rest := by
  have first := h.spells.first?_append parted
  have clear : ∀ c ∈ (text ++ rest).head?, isBlank c = false := by
    cases text with
    | nil =>
        cases h.spells
        rename_i alone
        cases alone
    | cons c cs =>
        exact h.notBlank
  have here : (text ++ rest).takeWhile isBlank = [] ∧
      (text ++ rest).dropWhile isBlank = text ++ rest :=
    @Lexeme.takeWhile_append_of_parted [] (text ++ rest) isBlank (by simp) clear
  refine scan_of_next? ?_
  simp [next?, here, first]

/-- The tokens of a text are spelled. -/
theorem spelled_of_mem_scan (mem : token ∈ scan offset text) :
    Spelled token.kind token.literal.toList := by
  induction offset, text using scan.induct with
  | case1 offset text found =>
      rw [scan_of_next?_eq_none found] at mem
      cases mem
  | case2 offset text first rest found ih =>
      rw [scan_of_next? found] at mem
      rcases List.mem_cons.mp mem with rfl | later
      · simp only [next?, Option.map_eq_some_iff] at found
        obtain ⟨lexeme, found, same⟩ := found
        cases same
        obtain ⟨spells, whole⟩ := Lexeme.spells_of_first? found
        simp only [String.toList_ofList]
        refine ⟨spells, fun c first => ?_⟩
        have clear := List.head?_dropWhile_not isBlank text
        rw [whole, List.head?_append, Option.mem_def.mp first] at clear
        exact clear
      · exact ih later

end Scan

end Token

theorem tokenize_dropLast (source : String) :
    (tokenize source).dropLast = Token.scan 0 source.toList := by
  simp [tokenize]

end LetLang
