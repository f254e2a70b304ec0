import LetLang.Proofs.Token.Scans

/-!
# Tokens with which a tree may begin

Some tokens are viable for a notion of the grammar if there is a well-formed tree that begins with
them.  The tree may go on with any tokens that have a spelling, and must not be nested more deeply
than the levels allow.

**Result.** A piece of a tree may be cut off anywhere: what has been read of it in full, with viable
tokens of the part that comes next behind it, is viable for the whole.  There is one theorem for
each part of a tree in which the cut may be.  The tree is closed with the tokens that are missing, a
name standing for an expression of which there is nothing yet.
-/

namespace LetLang

namespace Token

/-- The text of a token is one that its kind has. -/
def IsSpelled (token : Token) : Prop :=
  Spelled token.kind token.literal.toList

/-- Some tokens are the first of others, and the rest of these have a spelling. -/
def Completes (front whole : List Token) : Prop :=
  ∃ more, whole = front ++ more ∧ ∀ token ∈ more, token.IsSpelled

section Completes

variable {front whole others : List Token}

theorem Completes.refl (whole : List Token) :
    Completes whole whole :=
  ⟨[], (List.append_nil _).symm, by simp⟩

theorem completes_nil (spelled : ∀ token ∈ whole, token.IsSpelled) :
    Completes [] whole :=
  ⟨whole, rfl, spelled⟩

theorem Completes.cons (h : Completes front whole) (token : Token) :
    Completes (token :: front) (token :: whole) := by
  obtain ⟨more, rfl, spelled⟩ := h
  exact ⟨more, rfl, spelled⟩

theorem Completes.append (h : Completes front whole) (others : List Token) :
    Completes (others ++ front) (others ++ whole) := by
  obtain ⟨more, rfl, spelled⟩ := h
  exact ⟨more, (List.append_assoc _ _ _).symm, spelled⟩

/-- There may be more behind the tokens that are completed. -/
theorem Completes.behind
    (h : Completes front whole) (spelled : ∀ token ∈ others, token.IsSpelled) :
    Completes front (whole ++ others) := by
  obtain ⟨more, rfl, spelled'⟩ := h
  exact ⟨more ++ others, List.append_assoc _ _ _, List.forall_mem_append.mpr ⟨spelled', spelled⟩⟩

theorem Completes.head
    {token : Token} (h : Completes front (token :: whole)) (some : front ≠ []) :
    ∃ rest, front = token :: rest := by
  obtain ⟨more, same, _⟩ := h
  cases front with
  | nil =>
      exact absurd rfl some
  | cons first rest =>
      cases same
      exact ⟨rest, rfl⟩

end Completes

end Token

/-- A name with which to complete a text. -/
def TokenOf.anyName : TokenOf [.identifier] :=
  ⟨⟨.identifier, "x", ⟨0, 0⟩⟩, List.mem_singleton.mpr rfl⟩

/-- A sign with which to complete a text. -/
def TokenOf.any (kind : Kind) : TokenOf [kind] :=
  .sign kind 0

theorem TokenOf.isSpelled_anyName :
    TokenOf.anyName.token.IsSpelled := by
  have isName : Kind.ofWord (String.ofList "x".toList) = .identifier := by decide
  constructor
  · show Lexeme.Spells .identifier "x".toList
    rw [← isName]
    exact .word (by decide) (List.all_eq_true.mp (by decide))
  · rintro c ⟨⟩
    decide

theorem TokenOf.isSpelled_any {kind : Kind} (mem : kind ∈ Token.signs) :
    (TokenOf.any kind).token.IsSpelled :=
  Token.spelled_sign mem

namespace Concrete

open Token

/-- A name with which to complete a text, as an expression. -/
def Expr.anyName : Expr :=
  .identifier .anyName

/-- A block with which to complete a text. -/
def Block.any : Block :=
  .mk (.any .openBrace) [] (.any .closeBrace)

theorem Expr.isSpelled_anyName :
    ∀ token ∈ Expr.anyName.tokens, token.IsSpelled :=
  List.forall_mem_singleton.mpr TokenOf.isSpelled_anyName

theorem isSpelled_closing {kind : Kind} (mem : kind ∈ signs) :
    ∀ token ∈ [(TokenOf.any kind).token], token.IsSpelled :=
  List.forall_mem_singleton.mpr (TokenOf.isSpelled_any mem)

theorem Block.isSpelled_any :
    ∀ token ∈ Block.any.tokens, token.IsSpelled :=
  List.forall_mem_cons.mpr
    ⟨TokenOf.isSpelled_any (by decide), isSpelled_closing (by decide)⟩

section Conditions

variable (levels : Nat) (front : List Token)

/-- An expression that was asked for with a power holds together more strongly. -/
def Expr.Binds (power : Power) (e : Expr) : Prop :=
  e.IsBinary → power < e.level

/-- An expression that is an operand as a whole. -/
def Expr.IsSingle (e : Expr) : Prop :=
  ¬ e.IsBinary

/-- Tokens with which an expression may begin for which a condition holds. -/
def Expr.Viable (suits : Expr → Prop) : Prop :=
  ∃ e : Expr, Completes front e.tokens ∧ e.WellFormed ∧ e.nesting ≤ levels ∧ suits e

/-- Tokens with which a block may begin. -/
def Block.Viable : Prop :=
  ∃ b : Block, Completes front b.tokens ∧ b.WellFormed ∧ b.nesting ≤ levels

/-- Tokens with which a statement may begin. -/
def Stmt.Viable : Prop :=
  ∃ s : Stmt, Completes front s.tokens ∧ s.WellFormed ∧ s.nesting ≤ levels

/-- Tokens with which some statements may begin, of which there are none if there are no
tokens. -/
def Stmt.AllViable : Prop :=
  ∃ all : List Stmt, Completes front (Stmt.tokensOf all) ∧ Stmt.AllWellFormed all ∧
    Stmt.nestingOf all ≤ levels ∧ (front = [] → all = [])

end Conditions

variable {levels : Nat} {front : List Token} {power : Power}

section Expressions

variable {suits suits' : Expr → Prop}

theorem Expr.Viable.imp
    (h : Expr.Viable levels front suits) (weaker : ∀ e, suits e → suits' e) :
    Expr.Viable levels front suits' := by
  obtain ⟨e, completes, wellFormed, few, suited⟩ := h
  exact ⟨e, completes, wellFormed, few, weaker e suited⟩

/-- An operand holds together more strongly than any operation. -/
theorem Expr.IsSingle.binds {e : Expr} (h : e.IsSingle) (power : Power) :
    e.Binds power :=
  fun binary => absurd binary h

/-- Before the first token anything may still come. -/
theorem Expr.viable_nil (room : 0 < levels) (suited : suits .anyName) :
    Expr.Viable levels [] suits :=
  ⟨.anyName, completes_nil Expr.isSpelled_anyName, trivial, room, suited⟩

/-- Behind its last token an expression is completed by nothing. -/
theorem Expr.viable_tokens {e : Expr}
    (wellFormed : e.WellFormed) (few : e.nesting ≤ levels) (suited : suits e) :
    Expr.Viable levels e.tokens suits :=
  ⟨e, .refl _, wellFormed, few, suited⟩

/-- An operation is cut off in its right operand. -/
theorem Expr.Viable.operation
    {left : Expr} (operator : TokenOf binaryOperators)
    (h : Expr.Viable levels front (Expr.Binds operator.token.kind.power))
    (wellFormed : left.WellFormed) (few : left.nesting ≤ levels + 1)
    (weaker : operator.token.kind.power ≤ left.level) (binds : power < operator.token.kind.power) :
    Expr.Viable (levels + 1) (left.tokens ++ operator.token :: front) (Expr.Binds power) := by
  obtain ⟨right, completes, wellFormed', few', suited⟩ := h
  have stronger : operator.token.kind.power < right.level := by
    by_cases binary : right.IsBinary
    · exact suited binary
    · rw [Expr.level_eq_unary binary]
      exact Kind.power_lt_unary _
  refine ⟨.binary left operator right, (completes.cons _).append _,
    ⟨weaker, stronger, wellFormed, wellFormed'⟩, ?_, fun _ => binds⟩
  simp only [Expr.nesting]
  omega

theorem Expr.Viable.unary (operator : TokenOf unaryOperators)
    (h : Expr.Viable levels front (Expr.Binds .unary)) :
    Expr.Viable (levels + 1) (operator.token :: front) Expr.IsSingle := by
  obtain ⟨right, completes, wellFormed, few, suited⟩ := h
  have single : ¬ right.IsBinary := fun binary =>
    absurd (suited binary) (Power.not_lt.mpr right.level_le_unary)
  refine ⟨.unary operator right, completes.cons _, ⟨single, wellFormed⟩, ?_, id⟩
  simp only [Expr.nesting]
  omega

/-- A group is cut off before its closing parenthesis. -/
theorem Expr.Viable.group (opening : TokenOf [.openParen])
    (h : Expr.Viable levels front (Expr.Binds .lowest)) :
    Expr.Viable (levels + 1) (opening.token :: front) Expr.IsSingle := by
  obtain ⟨inner, completes, wellFormed, few, _⟩ := h
  refine ⟨.group opening inner (.any .closeParen),
    (completes.behind (isSpelled_closing (by decide))).cons _, wellFormed, ?_, id⟩
  simp only [Expr.nesting]
  omega

end Expressions

section Conditionals

variable (word : TokenOf [.ifWord]) (opening : TokenOf [.openParen])

/-- A conditional is cut off in its condition or behind it. -/
theorem Expr.Viable.condition
    (h : Expr.Viable levels front (Expr.Binds .lowest)) :
    Expr.Viable (levels + 1) (word.token :: opening.token :: front) Expr.IsSingle := by
  obtain ⟨test, completes, wellFormed, few, _⟩ := h
  have missing : ∀ token ∈ (TokenOf.any .closeParen).token :: (Block.any.tokens ++ []),
      token.IsSpelled :=
    List.forall_mem_cons.mpr ⟨TokenOf.isSpelled_any (by decide), by
      rw [List.append_nil]
      exact Block.isSpelled_any⟩
  refine ⟨.conditional word opening test (.any .closeParen) .any .absent,
    ((completes.behind missing).cons _).cons _, ⟨wellFormed, trivial, trivial⟩, ?_, id⟩
  simp only [Expr.nesting, Block.any, Block.nesting, Alternative.nesting, Stmt.nestingOf]
  omega

variable {test : Expr} (closing : TokenOf [.closeParen])

/-- A conditional is cut off in its first block or before it. -/
theorem Block.Viable.consequence
    (h : Block.Viable levels front) (wellFormed : test.WellFormed) (few : test.nesting ≤ levels) :
    Expr.Viable (levels + 1)
      (word.token :: opening.token :: (test.tokens ++ closing.token :: front)) Expr.IsSingle := by
  obtain ⟨b, completes, wellFormed', few'⟩ := h
  have whole : Completes front (b.tokens ++ []) := by
    rwa [List.append_nil]
  refine ⟨.conditional word opening test closing b .absent,
    (((whole.cons _).append _).cons _).cons _, ⟨wellFormed, wellFormed', trivial⟩, ?_, id⟩
  simp only [Expr.nesting, Alternative.nesting]
  omega

/-- A conditional is cut off in its second block or before it. -/
theorem Block.Viable.alternative {b : Block} (otherwise : TokenOf [.elseWord])
    (h : Block.Viable levels front) (wellFormed : test.WellFormed) (few : test.nesting ≤ levels)
    (wellFormedFirst : b.WellFormed) (fewFirst : b.nesting ≤ levels) :
    Expr.Viable (levels + 1)
      (word.token :: opening.token ::
        (test.tokens ++ closing.token :: (b.tokens ++ otherwise.token :: front)))
      Expr.IsSingle := by
  obtain ⟨second, completes, wellFormed', few'⟩ := h
  refine ⟨.conditional word opening test closing b (.present otherwise second),
    (((((completes.cons _).append _).cons _).append _).cons _).cons _,
    ⟨wellFormed, wellFormedFirst, wellFormed'⟩, ?_, id⟩
  simp only [Expr.nesting, Alternative.nesting]
  omega

end Conditionals

section Blocks

/-- Before its opening brace a block is missing as a whole. -/
theorem Block.viable_nil :
    Block.Viable levels [] :=
  ⟨.any, completes_nil Block.isSpelled_any, trivial, Nat.zero_le _⟩

/-- A block is cut off in its statements or before its closing brace. -/
theorem Block.viable_of_completes {all : List Stmt} (opening : TokenOf [.openBrace])
    (completes : Completes front (Stmt.tokensOf all)) (wellFormed : Stmt.AllWellFormed all)
    (few : Stmt.nestingOf all ≤ levels) :
    Block.Viable levels (opening.token :: front) :=
  ⟨.mk opening all (.any .closeBrace),
    (completes.behind (isSpelled_closing (by decide))).cons _, wellFormed, few⟩

end Blocks

section Statements

variable (word : TokenOf [.letWord]) (name : TokenOf [.identifier]) (sign : TokenOf [.assign])

theorem Stmt.viable_of_word (room : 0 < levels) :
    Stmt.Viable levels [word.token] := by
  refine ⟨.binding word .anyName (.any .assign) .anyName (.any .semicolon),
    (completes_nil ?_).cons _, trivial, room⟩
  exact List.forall_mem_cons.mpr ⟨TokenOf.isSpelled_anyName,
    List.forall_mem_cons.mpr ⟨TokenOf.isSpelled_any (by decide),
      List.forall_mem_append.mpr ⟨Expr.isSpelled_anyName, isSpelled_closing (by decide)⟩⟩⟩

theorem Stmt.viable_of_name (room : 0 < levels) :
    Stmt.Viable levels [word.token, name.token] := by
  refine ⟨.binding word name (.any .assign) .anyName (.any .semicolon),
    ((completes_nil ?_).cons _).cons _, trivial, room⟩
  exact List.forall_mem_cons.mpr ⟨TokenOf.isSpelled_any (by decide),
    List.forall_mem_append.mpr ⟨Expr.isSpelled_anyName, isSpelled_closing (by decide)⟩⟩

/-- A binding is cut off in its value or before its semicolon. -/
theorem Expr.Viable.binding
    (h : Expr.Viable levels front (Expr.Binds .lowest)) :
    Stmt.Viable levels (word.token :: name.token :: sign.token :: front) := by
  obtain ⟨value, completes, wellFormed, few, _⟩ := h
  have whole := completes.behind (isSpelled_closing (by decide : Kind.semicolon ∈ signs))
  exact ⟨.binding word name sign value (.any .semicolon), ((whole.cons _).cons _).cons _,
    wellFormed, few⟩

/-- A statement that returns is cut off in its value or before its semicolon. -/
theorem Expr.Viable.returning (word : TokenOf [.returnWord])
    (h : Expr.Viable levels front (Expr.Binds .lowest)) :
    Stmt.Viable levels (word.token :: front) := by
  obtain ⟨value, completes, wellFormed, few, _⟩ := h
  exact ⟨.returning word value (.any .semicolon),
    (completes.behind (isSpelled_closing (by decide))).cons _, wellFormed, few⟩

theorem Expr.Viable.statement
    (h : Expr.Viable levels front (Expr.Binds .lowest)) :
    Stmt.Viable levels front := by
  obtain ⟨value, completes, wellFormed, few, _⟩ := h
  refine ⟨.expression value none, ?_, wellFormed, few⟩
  exact completes.behind (List.forall_mem_nil _)

/-- Some statements are cut off in the first of them. -/
theorem Stmt.Viable.all (h : Stmt.Viable levels front) :
    Stmt.AllViable levels front := by
  by_cases nothing : front = []
  · rw [nothing]
    exact ⟨[], .refl _, trivial, Nat.zero_le _, fun _ => rfl⟩
  · obtain ⟨s, completes, wellFormed, few⟩ := h
    refine ⟨[s], completes.behind (List.forall_mem_nil _), ⟨wellFormed, trivial, trivial⟩, ?_,
      fun none => absurd none nothing⟩
    simpa [Stmt.nestingOf] using few

/-- Some statements are cut off behind the first of them. -/
theorem Stmt.AllViable.cons {s : Stmt}
    (h : Stmt.AllViable levels front) (wellFormed : s.WellFormed) (few : s.nesting ≤ levels)
    (parted : s.IsOpen → ∀ token ∈ front.head?, token.kind ≠ .minus) :
    Stmt.AllViable levels (s.tokens ++ front) := by
  obtain ⟨all, completes, wellFormed', few', none⟩ := h
  refine ⟨s :: all, completes.append _, ⟨wellFormed, ?_, wellFormed'⟩, ?_, fun nothing => ?_⟩
  · cases all with
    | nil =>
        trivial
    | cons next others =>
        intro isOpen
        obtain ⟨more, begins⟩ := next.exists_tokens_eq
        have some : front ≠ [] := fun nothing => by cases none nothing
        rw [Stmt.tokensOf, begins] at completes
        obtain ⟨rest, same⟩ := completes.head some
        exact parted isOpen next.first (by rw [same]; rfl)
  · simp only [Stmt.nestingOf]
    omega
  · obtain ⟨more, begins⟩ := s.exists_tokens_eq
    rw [begins] at nothing
    cases nothing

end Statements

end Concrete
end LetLang
