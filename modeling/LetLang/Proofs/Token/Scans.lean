import LetLang.Proofs.Concrete.First
import LetLang.Proofs.Token.Spelling

/-!
# Scanning text piece by piece

A text that is put together from pieces is scanned piece by piece, if no piece fuses with the one
behind it.  `Token.Scans` says that a piece becomes some tokens, whatever the rest of the text
becomes; two pieces that fit make one.  The second half of the module says which tokens fuse with
which characters.
-/

namespace LetLang

open Text

/-- A character that ends every word and every number. -/
def Text.Separates (c : Char) : Prop :=
  isWord c = false ∧ isNumber c = false ∧ c ≠ '.'

instance (c : Char) : Decidable (Separates c) :=
  inferInstanceAs (Decidable (_ ∧ _ ∧ _))

theorem Text.Separates.head {c : Char} (h : Separates c) (rest : List Char) :
    ∀ d ∈ ([c] ++ rest).head?, Separates d := by
  rintro d ⟨⟩
  exact h

namespace Token

/-- A token with its first byte at an offset. -/
def placed (offset : Nat) (token : Token) : Token :=
  { token with span := ⟨offset, offset + byteLength token.literal.toList⟩ }

/-- Text is scanned up to the rest behind it. -/
def Scans (offset : Nat) (text rest : List Char) (tokens : List Token) : Prop :=
  scan offset (text ++ rest) = tokens ++ scan (offset + byteLength text) rest

section Scans

variable {offset : Nat} {text more rest : List Char} {tokens others : List Token}

theorem Scans.append
    (first : Scans offset text (more ++ rest) tokens)
    (second : Scans (offset + byteLength text) more rest others) :
    Scans offset (text ++ more) rest (tokens ++ others) := by
  have first : scan offset (text ++ (more ++ rest)) =
      tokens ++ scan (offset + byteLength text) (more ++ rest) := first
  have second : scan (offset + byteLength text) (more ++ rest) =
      others ++ scan (offset + byteLength text + byteLength more) rest := second
  rw [Scans, List.append_assoc, first, second, byteLength_append, List.append_assoc,
    Nat.add_assoc]

theorem scans_blank {c : Char} (blank : isBlank c) :
    Scans offset [c] rest [] := by
  rw [Scans, List.singleton_append, scan_blank blank]
  rfl

theorem Spelled.scans {token : Token}
    (h : Spelled token.kind token.literal.toList)
    (parted : ∀ c ∈ rest.head?, token.kind.fuses c = false) :
    Scans offset token.literal.toList rest [token.placed offset] := by
  rw [Scans, h.scan_append parted, String.ofList_toList]
  rfl

end Scans

section Signs

/-- The delimiters that stand in the text of a tree, and the sign of a binding. -/
def signs : List Kind :=
  [.assign, .semicolon, .openParen, .closeParen, .openBrace, .closeBrace]

theorem spelled_sign {kind : Kind} (mem : kind ∈ signs) :
    Spelled kind kind.name.toList := by
  simp only [signs, List.mem_cons, List.not_mem_nil, or_false] at mem
  rcases mem with rfl | rfl | rfl | rfl | rfl | rfl
  all_goals
    refine ⟨.operator rfl, ?_⟩
    rintro c ⟨⟩
    decide

theorem spelled_else :
    Spelled .elseWord "else".toList := by
  have isElse : Kind.ofWord (String.ofList "else".toList) = .elseWord := by decide
  constructor
  · rw [← isElse]
    exact .word (by decide) (List.all_eq_true.mp (by decide))
  · rintro c ⟨⟩
    decide

end Signs

end Token

/-- The sign of a kind, at an offset. -/
def TokenOf.sign (kind : Kind) (offset : Nat) : TokenOf [kind] :=
  ⟨Token.placed offset ⟨kind, kind.name, ⟨0, 0⟩⟩, List.mem_singleton.mpr rfl⟩

/-- A token with its first byte at an offset is of the same kind. -/
def TokenOf.placed {kinds : List Kind} (offset : Nat) (token : TokenOf kinds) : TokenOf kinds :=
  ⟨token.token.placed offset, token.isOf⟩

@[simp] theorem TokenOf.token_placed {kinds : List Kind} (offset : Nat) (token : TokenOf kinds) :
    (token.placed offset).token = token.token.placed offset :=
  rfl

theorem TokenOf.scans_sign
    {kind : Kind} (mem : kind ∈ Token.signs) {offset : Nat} {rest : List Char}
    (parted : ∀ c ∈ rest.head?, kind.fuses c = false) :
    Token.Scans offset kind.name.toList rest [(TokenOf.sign kind offset).token] :=
  @Token.Spelled.scans offset rest ⟨kind, kind.name, ⟨0, 0⟩⟩ (Token.spelled_sign mem) parted

theorem Token.Scans.parenthesized
    {offset : Nat} {text rest : List Char} {tokens : List Token}
    (h : Token.Scans (offset + byteLength ['(']) text ([')'] ++ rest) tokens) :
    Token.Scans offset (['('] ++ text ++ [')']) rest
      ((TokenOf.sign .openParen offset).token ::
        (tokens ++ [(TokenOf.sign .closeParen (offset + byteLength (['('] ++ text))).token])) := by
  have opening : Token.Scans offset ['('] (text ++ ([')'] ++ rest)) _ :=
    TokenOf.scans_sign (by decide : Kind.openParen ∈ Token.signs) (fun _ _ => rfl)
  have closing : Token.Scans (offset + byteLength (['('] ++ text)) [')'] rest _ :=
    TokenOf.scans_sign (by decide : Kind.closeParen ∈ Token.signs) (fun _ _ => rfl)
  exact (opening.append h).append closing

section Fusion

open Lexeme

variable {kind : Kind} {c : Char} {text more : List Char}

/-- The kinds of tokens that go on for as long as there are characters of one class. -/
def Kind.runs : List Kind :=
  [.integer, .float] ++ Kind.words

theorem Kind.runs_of_mem_booleans (mem : kind ∈ [Kind.trueWord, .falseWord]) :
    kind ∈ Kind.runs := by
  revert kind
  decide

theorem Kind.fuses_of_mem_runs (mem : kind ∈ Kind.runs) (h : Separates c) :
    kind.fuses c = false := by
  obtain ⟨noWord, noNumber, noPoint⟩ := h
  rcases List.mem_append.mp mem with isNumeral | isWord
  · simp only [List.mem_cons, List.not_mem_nil, or_false] at isNumeral
    rcases isNumeral with rfl | rfl <;> simp [Kind.fuses, noNumber, noPoint]
  · rw [Kind.fuses_of_mem_words isWord, noWord]

/-- With a separating character only a sign fuses that may go on with `=`. -/
theorem Kind.fuses_of_separates (h : Separates c) (other : c ≠ '=') :
    kind.fuses c = false := by
  obtain ⟨noWord, noNumber, noPoint⟩ := h
  cases kind <;> simp [Kind.fuses, noWord, noNumber, noPoint, other]

theorem Kind.fuses_of_mem_unary (mem : kind ∈ Concrete.unaryOperators) (h : c ≠ '=') :
    kind.fuses c = false := by
  simp only [Concrete.unaryOperators, List.mem_cons, List.not_mem_nil, or_false] at mem
  rcases mem with rfl | rfl <;> simp [Kind.fuses, h]

theorem Kind.fuses_of_mem_binary (mem : kind ∈ Concrete.binaryOperators) :
    kind.fuses c = false := by
  cases kind <;> first
    | rfl
    | exact absurd mem (by decide)

theorem Lexeme.Spells.head_ne_equals
    (h : Spells kind text) (notAssign : kind ≠ .assign) (notEqual : kind ≠ .equal) :
    ∀ c ∈ (text ++ more).head?, c ≠ '=' := by
  have other {c : Char} (noOperator : c ∉ operatorCharacters) : c ≠ '=' := by
    rintro rfl
    exact noOperator (by decide)
  cases h with
  | operator alone =>
      obtain ⟨mem, rfl⟩ := operator?_alone_iff.mp alone
      cases kind <;> first
        | exact absurd mem (by decide)
        | exact absurd rfl notAssign
        | exact absurd rfl notEqual
        | (rintro c ⟨⟩
           decide)
  | word noOperator | integer noOperator | float noOperator | illegal noOperator =>
      rintro c ⟨⟩
      exact other noOperator

/-- An operator separates what stands before it. -/
theorem Lexeme.Spells.separates
    (h : Spells kind text) (mem : kind ∈ Concrete.binaryOperators) :
    ∀ c ∈ (text ++ more).head?, Separates c := by
  cases h with
  | operator alone =>
      obtain ⟨_, rfl⟩ := operator?_alone_iff.mp alone
      cases kind <;> first
        | exact absurd mem (by decide)
        | (rintro c ⟨⟩
           decide)
  | word noOperator all =>
      have apart : ∀ kind ∈ Kind.words, kind ∉ Concrete.binaryOperators := by decide
      exact absurd mem (apart _ (Kind.ofWord_mem_words _))
  | integer | float | illegal =>
      exact absurd mem (by decide)

end Fusion

end LetLang
