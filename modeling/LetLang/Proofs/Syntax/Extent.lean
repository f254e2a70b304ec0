import LetLang.Proofs.Syntax.Outline

/-!
# The tokens of a tree

**Input.** A syntax tree, and the tokens that it was read from: all of them, those included that
leave nothing in the tree.

**Result.** How the tokens of a tree are made of those of its parts, one theorem for each form of a
node.  An expression begins with the first of its tokens that is no opening parenthesis and ends
with the last one that is no closing parenthesis; and its outline groups its tokens.
-/

namespace LetLang

open Outline (Grouping)

namespace Token

variable {tokens others : List Token} {token : Token} {offset : Nat}

/-- Where the first of some tokens begins that is no opening parenthesis. -/
def contentStart? (tokens : List Token) : Option Nat :=
  (tokens.find? fun token => token.kind ≠ .openParen).map Token.start

/-- Where the last of some tokens ends that is no closing parenthesis. -/
def contentStop? (tokens : List Token) : Option Nat :=
  (tokens.reverse.find? fun token => token.kind ≠ .closeParen).map Token.stop

theorem contentStart?_cons (other : token.kind ≠ .openParen) :
    contentStart? (token :: tokens) = some token.start := by
  simp [contentStart?, other]

theorem contentStart?_group (opening : token.kind = .openParen) :
    contentStart? (token :: tokens) = contentStart? tokens := by
  simp [contentStart?, opening]

theorem contentStart?_append (h : contentStart? tokens = some offset) :
    contentStart? (tokens ++ others) = some offset := by
  obtain ⟨first, found, start⟩ := Option.map_eq_some_iff.mp h
  rw [contentStart?, List.find?_append, found, ← start]
  rfl

theorem contentStop?_concat (other : token.kind ≠ .closeParen) :
    contentStop? (tokens ++ [token]) = some token.stop := by
  simp [contentStop?, other]

theorem contentStop?_group (closing : token.kind = .closeParen) :
    contentStop? (tokens ++ [token]) = contentStop? tokens := by
  simp [contentStop?, closing]

theorem contentStop?_append (h : contentStop? others = some offset) :
    contentStop? (tokens ++ others) = some offset := by
  obtain ⟨last, found, stop⟩ := Option.map_eq_some_iff.mp h
  rw [contentStop?, List.reverse_append, List.find?_append, found, ← stop]
  rfl

theorem contentStop?_cons (h : contentStop? tokens = some offset) :
    contentStop? (token :: tokens) = some offset :=
  @contentStop?_append [token] tokens offset h

section Row

variable {boundary : Nat → Prop}

/-- Of tokens in a row, those before the first that is no opening parenthesis are such ones. -/
theorem le_start_or_of_contentStart?
    (row : Outline.InRow boundary tokens) (first : contentStart? tokens = some offset) :
    ∀ token ∈ tokens, offset ≤ token.start ∨ token.kind = .openParen ∧ token.stop ≤ offset := by
  obtain ⟨begin, found, rfl⟩ := Option.map_eq_some_iff.mp first
  obtain ⟨_, before, behind, rfl, opening⟩ := List.find?_eq_some_iff_append.mp found
  obtain ⟨_, ordered, apart⟩ := List.pairwise_append.mp row.ordered
  intro token mem
  rcases List.mem_append.mp mem with early | late
  · exact .inr ⟨by simpa using opening token early, apart token early begin List.mem_cons_self⟩
  · refine .inl ?_
    rcases List.mem_cons.mp late with rfl | later
    · exact Nat.le_refl _
    · exact Nat.le_trans (Nat.le_of_lt (row.bounded begin (by simp)).nonempty)
        ((List.pairwise_cons.mp ordered).1 token later)

/-- Of tokens in a row, those behind the last that is no closing parenthesis are such ones. -/
theorem stop_le_or_of_contentStop?
    (row : Outline.InRow boundary tokens) (last : contentStop? tokens = some offset) :
    ∀ token ∈ tokens, token.stop ≤ offset ∨ token.kind = .closeParen ∧ offset ≤ token.start := by
  obtain ⟨finish, found, rfl⟩ := Option.map_eq_some_iff.mp last
  obtain ⟨_, behind, before, whole, closing⟩ := List.find?_eq_some_iff_append.mp found
  have reversed := List.pairwise_reverse.mpr row.ordered
  rw [whole] at reversed
  obtain ⟨_, ordered, apart⟩ := List.pairwise_append.mp reversed
  intro token mem
  rw [← List.mem_reverse, whole] at mem
  rcases List.mem_append.mp mem with late | early
  · exact .inr ⟨by simpa using closing token late, apart token late finish List.mem_cons_self⟩
  · refine .inl ?_
    rcases List.mem_cons.mp early with rfl | earlier
    · exact Nat.le_refl _
    · have isLast : finish ∈ tokens := List.mem_reverse.mp (by simp [whole])
      exact Nat.le_trans ((List.pairwise_cons.mp ordered).1 token earlier)
        (Nat.le_of_lt (row.bounded finish isLast).nonempty)

end Row

end Token

namespace Outline

variable {tokens : List Token} {outlines : List Outline}

/-- A token behind may be left out. -/
theorem Grouping.concat (h : Grouping tokens outlines) (token : Token) :
    Grouping (tokens ++ [token]) outlines := by
  rw [← List.append_nil outlines]
  exact h.append (.skip token .nil)

end Outline

/-- An expression was read from some tokens. -/
structure Expr.Occupies (e : Expr) (tokens : List Token) : Prop where
  grouping : Grouping tokens [e.outline]
  start : Token.contentStart? tokens = some e.span.start
  stop : Token.contentStop? tokens = some e.span.stop

theorem Expr.Occupies.ne_nil
    {e : Expr} {tokens : List Token} (h : e.Occupies tokens) :
    tokens ≠ [] := by
  rintro rfl
  have start := h.start
  simp [Token.contentStart?] at start

/-- An expression covers its tokens, but for opening parentheses in front and closing ones
behind. -/
theorem Expr.Occupies.covers
    {e : Expr} {tokens : List Token} {boundary : Nat → Prop} (h : e.Occupies tokens)
    (row : Outline.InRow boundary tokens) :
    ∀ token ∈ tokens, token.span.Inside e.span ∨
      (token.kind = .openParen ∧ token.span.Before e.span) ∨
      (token.kind = .closeParen ∧ e.span.Before token.span) := by
  intro token mem
  rcases Token.le_start_or_of_contentStart? row h.start token mem with start | opening
  · rcases Token.stop_le_or_of_contentStop? row h.stop token mem with stop | closing
    · exact .inl ⟨start, stop⟩
    · exact .inr (.inr closing)
  · exact .inr (.inl opening)

/-- A block was read from some tokens. -/
structure Block.Occupies (b : Block) (tokens : List Token) : Prop where
  grouping : Grouping tokens [b.outline]
  stop : Token.contentStop? tokens = some b.span.stop

/-- What follows the first block of a conditional was read from some tokens: nothing, or a word and
a block. -/
inductive Block.EndsOn : Option Block → List Token → Prop
  | absent : EndsOn none []
  | present {b : Block} {tokens : List Token} (word : Token) (h : b.Occupies tokens) :
      EndsOn (some b) (word :: tokens)

section Expressions

variable {tokens others : List Token} {left right : Expr}

/-- A name or a literal is read from its token. -/
theorem Expr.occupies_of_leaf
    {e : Expr} {token : Token} (outline : e.outline = .leaf token)
    (notOpening : token.kind ≠ .openParen) (notClosing : token.kind ≠ .closeParen) :
    e.Occupies [token] := by
  have span : e.span = token.span := by
    rw [← e.span_outline, outline]
    rfl
  refine ⟨outline ▸ .single token, ?_, ?_⟩
  · rw [Token.contentStart?_cons notOpening, span]
    rfl
  · rw [← List.nil_append [token], Token.contentStop?_concat notClosing, span]
    rfl

theorem Expr.Occupies.unary
    (h : right.Occupies tokens) (token : Token) (operator : String)
    (notOpening : token.kind ≠ .openParen) :
    (Expr.unary token operator right).Occupies (token :: tokens) := by
  refine ⟨Grouping.whole (h.grouping.token token) ⟨_, rfl, rfl⟩ ⟨right.outline, rfl, ?_⟩,
    Token.contentStart?_cons notOpening, Token.contentStop?_cons h.stop⟩
  rw [right.span_outline]
  rfl

theorem Expr.Occupies.binary
    (onLeft : left.Occupies tokens) (onRight : right.Occupies others)
    (token : Token) (operator : String) :
    (Expr.binary token operator left right).Occupies (tokens ++ token :: others) := by
  refine ⟨Grouping.whole (onLeft.grouping.append (onRight.grouping.token token))
    ⟨left.outline, rfl, ?_⟩ ⟨right.outline, rfl, ?_⟩, Token.contentStart?_append onLeft.start,
    Token.contentStop?_append (Token.contentStop?_cons onRight.stop)⟩
  · rw [left.span_outline]
    rfl
  · rw [right.span_outline]
    rfl

/-- Parentheses around an expression leave nothing in the tree. -/
theorem Expr.Occupies.group
    {e : Expr} (h : e.Occupies tokens) {opening closing : Token}
    (opens : opening.kind = .openParen) (closes : closing.kind = .closeParen) :
    e.Occupies (opening :: (tokens ++ [closing])) := by
  refine ⟨(h.grouping.concat closing).skip opening, ?_, ?_⟩
  · rw [Token.contentStart?_group opens]
    exact Token.contentStart?_append h.start
  · rw [← List.cons_append, Token.contentStop?_group closes]
    exact Token.contentStop?_cons h.stop

end Expressions

section Conditionals

variable {tokens tokens' others : List Token} {condition : Expr}
variable {consequence : Block} {alternative : Option Block}

/-- The statements of a block are read from the tokens between its braces. -/
theorem Block.occupies_of_statements
    {all : List Stmt} (h : Grouping tokens (Stmt.outlines all)) (opening : Token) {closing : Token}
    (closes : closing.kind = .closeBrace) (single : closing.stop = closing.start + 1) :
    (Block.mk opening ⟨opening.start, closing.stop⟩ all).Occupies
      (opening :: (tokens ++ [closing])) := by
  have brace : Outline.leaf closing = .node ⟨closing.stop - 1, closing.stop⟩ [] := by
    rw [single]
    show Outline.node ⟨closing.start, closing.stop⟩ [] = _
    rw [single]
    rfl
  refine ⟨Grouping.whole ((h.append ?_).token opening) ⟨_, rfl, rfl⟩
    ⟨.node ⟨closing.stop - 1, closing.stop⟩ [], ?_, rfl⟩, ?_⟩
  · rw [← brace]
    exact .single closing
  · rw [← List.cons_append, List.getLast?_concat]
    rfl
  · rw [← List.cons_append]
    exact Token.contentStop?_concat (by rw [closes]; decide)

theorem Block.EndsOn.grouping (h : Block.EndsOn alternative others) :
    Grouping others (alternative.map Block.outline).toList := by
  cases h with
  | absent =>
      exact .nil
  | present word h =>
      exact h.grouping.skip word

/-- A conditional ends with its last block. -/
theorem Block.EndsOn.stop
    (h : Block.EndsOn alternative others) (onFirst : consequence.Occupies tokens) :
    Token.contentStop? (tokens ++ others) = some (alternative.getD consequence).span.stop := by
  cases h with
  | absent =>
      rw [List.append_nil]
      exact onFirst.stop
  | present word h =>
      exact Token.contentStop?_append (Token.contentStop?_cons h.stop)

theorem Expr.Occupies.conditional
    (onCondition : condition.Occupies tokens) (onFirst : consequence.Occupies tokens')
    (onSecond : Block.EndsOn alternative others) {word : Token} (opening closing : Token)
    (notOpening : word.kind ≠ .openParen) :
    (Expr.conditional word condition consequence alternative).Occupies
      (word :: opening :: (tokens ++ closing :: (tokens' ++ others))) := by
  have behind := (onFirst.grouping.append onSecond.grouping).skip closing
  have parts := (onCondition.grouping.append behind).skip opening
  refine ⟨?_, Token.contentStart?_cons notOpening, ?_⟩
  · rw [Expr.outline_conditional]
    refine Grouping.whole (parts.token word) ⟨_, rfl, rfl⟩ ?_
    cases alternative with
    | none =>
        exact ⟨consequence.outline, rfl, by rw [consequence.span_outline]; rfl⟩
    | some second =>
        exact ⟨second.outline, rfl, by rw [second.span_outline]; rfl⟩
  · have last := onSecond.stop onFirst
    exact Token.contentStop?_cons (Token.contentStop?_cons
      (Token.contentStop?_append (Token.contentStop?_cons last)))

end Conditionals

section Statements

variable {tokens : List Token} {value : Expr}

theorem Stmt.grouping_binding
    (h : Grouping tokens [value.outline]) (word : Token) (name : Identifier)
    (sign semicolon : Token) :
    Grouping (word :: name.token :: sign :: (tokens ++ [semicolon]))
      [(Stmt.binding word name value).outline] := by
  have parts := (((h.concat semicolon).skip sign).token name.token).token word
  refine Grouping.whole parts ⟨_, rfl, rfl⟩ ⟨value.outline, rfl, ?_⟩
  rw [value.span_outline]
  rfl

theorem Stmt.grouping_returningNothing (word semicolon : Token) :
    Grouping [word, semicolon] [(Stmt.returning word none).outline] :=
  Grouping.whole ((Grouping.single word).concat semicolon) ⟨_, rfl, rfl⟩ ⟨_, rfl, rfl⟩

theorem Stmt.grouping_returning
    (h : Grouping tokens [value.outline]) (word semicolon : Token) :
    Grouping (word :: (tokens ++ [semicolon]))
      [(Stmt.returning word (some value)).outline] := by
  refine Grouping.whole ((h.concat semicolon).token word) ⟨_, rfl, rfl⟩
    ⟨value.outline, rfl, ?_⟩
  rw [value.span_outline]
  rfl

theorem Stmt.grouping_expression (h : Grouping tokens [value.outline]) (token : Token) :
    Grouping tokens [(Stmt.expression token value).outline] :=
  Grouping.whole h ⟨value.outline, rfl, congrArg Span.start value.span_outline⟩
    ⟨value.outline, rfl, congrArg Span.stop value.span_outline⟩

end Statements

end LetLang
