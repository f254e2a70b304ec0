import LetLang.Proofs.Concrete.First
import LetLang.Proofs.Syntax.Bare
import LetLang.Proofs.Syntax.Relocate

/-!
# The bytes of all nodes

`spans` lists every span that can be read off a syntax tree: of each node those of the token that it
is named by and of the node itself, before those of the nodes in it.

* Moving a tree moves its spans and leaves its text as it is.
* Each span in the syntax tree of a concrete tree begins with one token of that tree and ends with
  one.
-/

namespace LetLang

section Spans

mutual

/-- The spans of an expression and of all nodes in it. -/
def Expr.spans : Expr → List Span
  | .identifier name => [name.token.span]
  | .integer token _ => [token.span]
  | .float token _ => [token.span]
  | .boolean token _ => [token.span]
  | .unary token operator right =>
      token.span :: (Expr.unary token operator right).span :: right.spans
  | .binary token operator left right =>
      token.span :: (Expr.binary token operator left right).span :: (left.spans ++ right.spans)
  | .conditional token condition consequence none =>
      token.span :: (Expr.conditional token condition consequence none).span ::
        (condition.spans ++ consequence.spans)
  | .conditional token condition consequence (some alternative) =>
      token.span :: (Expr.conditional token condition consequence (some alternative)).span ::
        (condition.spans ++ (consequence.spans ++ alternative.spans))

/-- The spans of a block and of all nodes in it. -/
def Block.spans : Block → List Span
  | .mk token span statements => token.span :: span :: Stmt.spansOf statements

/-- The spans of a statement and of all nodes in it. -/
def Stmt.spans : Stmt → List Span
  | .binding token name value =>
      token.span :: (Stmt.binding token name value).span :: name.token.span :: value.spans
  | .returning token none => [token.span]
  | .returning token (some value) =>
      token.span :: (Stmt.returning token (some value)).span :: value.spans
  | .expression token value => token.span :: value.span :: value.spans
  | .block inner => inner.spans

/-- The spans of some statements and of all nodes in them. -/
def Stmt.spansOf : List Stmt → List Span
  | [] => []
  | first :: rest => first.spans ++ Stmt.spansOf rest

end

/-- The spans of all nodes of a program. -/
def Program.spans (program : Program) : List Span :=
  Stmt.spansOf program.statements

end Spans

section Relocate

variable (place : Nat → Nat)

@[simp] theorem Token.span_relocate (token : Token) :
    (token.relocate place).span = token.span.relocate place :=
  rfl

@[simp] theorem Identifier.token_relocate (name : Identifier) :
    (name.relocate place).token = name.token.relocate place :=
  rfl

theorem Block.span_relocate (b : Block) :
    (b.relocate place).span = b.span.relocate place := by
  cases b with
  | mk token span statements =>
      rfl

theorem Expr.span_relocate (e : Expr) :
    (e.relocate place).span = e.span.relocate place := by
  cases e with
  | identifier _ | integer _ _ | float _ _ | boolean _ _ =>
      rfl
  | unary _ _ right =>
      simp only [Expr.relocate, Expr.span, right.span_relocate]
      rfl
  | binary _ _ left right =>
      simp only [Expr.relocate, Expr.span, left.span_relocate, right.span_relocate]
      rfl
  | conditional _ _ consequence alternative =>
      cases alternative with
      | none =>
          simp only [Expr.relocate, Expr.span, Option.getD_none, consequence.span_relocate]
          rfl
      | some second =>
          simp only [Expr.relocate, Expr.span, Option.getD_some, second.span_relocate]
          rfl

theorem Stmt.span_relocate (s : Stmt) :
    (s.relocate place).span = s.span.relocate place := by
  cases s with
  | binding _ _ value =>
      simp only [Stmt.relocate, Stmt.span, value.span_relocate]
      rfl
  | returning _ value =>
      cases value with
      | none =>
          rfl
      | some value =>
          simp only [Stmt.relocate, Stmt.span, value.span_relocate]
          rfl
  | expression _ value =>
      exact value.span_relocate place
  | block inner =>
      exact inner.span_relocate place

mutual

/-- Moving an expression moves the spans of all nodes in it. -/
theorem Expr.spans_relocate :
    ∀ e : Expr, (e.relocate place).spans = e.spans.map (Span.relocate place)
  | .identifier _ | .integer _ _ | .float _ _ | .boolean _ _ => rfl
  | .unary token operator right => by
      have whole := Expr.span_relocate place (.unary token operator right)
      simp only [Expr.relocate] at whole
      simp only [Expr.relocate, Expr.spans, whole, right.spans_relocate, List.map_cons,
        Token.span_relocate]
  | .binary token operator left right => by
      have whole := Expr.span_relocate place (.binary token operator left right)
      simp only [Expr.relocate] at whole
      simp only [Expr.relocate, Expr.spans, whole, left.spans_relocate, right.spans_relocate,
        List.map_cons, List.map_append, Token.span_relocate]
  | .conditional token condition consequence none => by
      have whole := Expr.span_relocate place (.conditional token condition consequence none)
      simp only [Expr.relocate] at whole
      simp only [Expr.relocate, Expr.spans, whole, condition.spans_relocate,
        consequence.spans_relocate, List.map_cons, List.map_append, Token.span_relocate]
  | .conditional token condition consequence (some alternative) => by
      have whole := Expr.span_relocate place
        (.conditional token condition consequence (some alternative))
      simp only [Expr.relocate] at whole
      simp only [Expr.relocate, Expr.spans, whole, condition.spans_relocate,
        consequence.spans_relocate, alternative.spans_relocate, List.map_cons, List.map_append,
        Token.span_relocate]

theorem Block.spans_relocate :
    ∀ b : Block, (b.relocate place).spans = b.spans.map (Span.relocate place)
  | .mk _ _ statements => by
      simp only [Block.relocate, Block.spans, Stmt.spansOf_relocateAll statements, List.map_cons,
        Token.span_relocate]

theorem Stmt.spans_relocate :
    ∀ s : Stmt, (s.relocate place).spans = s.spans.map (Span.relocate place)
  | .binding token name value => by
      have whole := Stmt.span_relocate place (.binding token name value)
      simp only [Stmt.relocate] at whole
      simp only [Stmt.relocate, Stmt.spans, whole, value.spans_relocate, List.map_cons,
        Token.span_relocate, Identifier.token_relocate]
  | .returning _ none => rfl
  | .returning token (some value) => by
      have whole := Stmt.span_relocate place (.returning token (some value))
      simp only [Stmt.relocate] at whole
      simp only [Stmt.relocate, Stmt.spans, whole, value.spans_relocate, List.map_cons,
        Token.span_relocate]
  | .expression _ value => by
      simp only [Stmt.relocate, Stmt.spans, value.span_relocate, value.spans_relocate,
        List.map_cons, Token.span_relocate]
  | .block inner => by
      simp only [Stmt.relocate, Stmt.spans, inner.spans_relocate]

theorem Stmt.spansOf_relocateAll :
    ∀ all : List Stmt,
      Stmt.spansOf (Stmt.relocateAll place all) = (Stmt.spansOf all).map (Span.relocate place)
  | [] => rfl
  | first :: rest => by
      simp only [Stmt.relocateAll, Stmt.spansOf, first.spans_relocate,
        Stmt.spansOf_relocateAll rest, List.map_append]

end

mutual

/-- What a tree is without its places does not depend on them. -/
theorem Expr.bare_relocate :
    ∀ e : Expr, (e.relocate place).bare = e.bare
  | .identifier _ | .integer _ _ | .float _ _ | .boolean _ _ => rfl
  | .unary _ _ right => by
      simp only [Expr.relocate, Expr.bare, right.bare_relocate]
      rfl
  | .binary _ _ left right => by
      simp only [Expr.relocate, Expr.bare, left.bare_relocate, right.bare_relocate]
      rfl
  | .conditional _ condition consequence none => by
      simp only [Expr.relocate, Expr.bare, condition.bare_relocate, consequence.bare_relocate]
      rfl
  | .conditional _ condition consequence (some alternative) => by
      simp only [Expr.relocate, Expr.bare, condition.bare_relocate, consequence.bare_relocate,
        alternative.bare_relocate]
      rfl

theorem Block.bare_relocate :
    ∀ b : Block, (b.relocate place).bare = b.bare
  | .mk _ _ statements => by
      simp only [Block.relocate, Block.bare, Stmt.bareAll_relocateAll statements]
      rfl

theorem Stmt.bare_relocate :
    ∀ s : Stmt, (s.relocate place).bare = s.bare
  | .binding _ _ value => by
      simp only [Stmt.relocate, Stmt.bare, value.bare_relocate]
      rfl
  | .returning _ none => rfl
  | .returning _ (some value) => by
      simp only [Stmt.relocate, Stmt.bare, value.bare_relocate]
      rfl
  | .expression _ value => by
      simp only [Stmt.relocate, Stmt.bare, value.bare_relocate]
  | .block inner => by
      simp only [Stmt.relocate, Stmt.bare, inner.bare_relocate]

theorem Stmt.bareAll_relocateAll :
    ∀ all : List Stmt, Stmt.bareAll (Stmt.relocateAll place all) = Stmt.bareAll all
  | [] => rfl
  | first :: rest => by
      simp only [Stmt.relocateAll, Stmt.bareAll, first.bare_relocate,
        Stmt.bareAll_relocateAll rest]

end

theorem Stmt.map_render_relocate (all : List Stmt) :
    (all.map (Stmt.relocate place)).map Stmt.render = all.map Stmt.render := by
  refine Stmt.map_render_eq_of_bare ?_
  rw [← Stmt.relocateAll_eq_map, ← Stmt.bareAll_eq_map, ← Stmt.bareAll_eq_map,
    Stmt.bareAll_relocateAll]

end Relocate

/-- A span begins with one of some tokens and ends with one. -/
def Span.Joins (span : Span) (tokens : List Token) : Prop :=
  ∃ first ∈ tokens, ∃ last ∈ tokens, span = ⟨first.start, last.stop⟩

section Joins

variable {span other : Span} {tokens more : List Token}

theorem Token.joins_span {token : Token} (mem : token ∈ tokens) :
    token.span.Joins tokens :=
  ⟨token, mem, token, mem, rfl⟩

theorem Span.Joins.mono (h : span.Joins tokens) (subset : tokens ⊆ more) :
    span.Joins more := by
  obtain ⟨first, isFirst, last, isLast, same⟩ := h
  exact ⟨first, subset isFirst, last, subset isLast, same⟩

/-- From where one span begins to where another one ends. -/
theorem Span.Joins.through (h : span.Joins tokens) (h' : other.Joins tokens) :
    (⟨span.start, other.stop⟩ : Span).Joins tokens := by
  obtain ⟨first, isFirst, _, _, rfl⟩ := h
  obtain ⟨_, _, last, isLast, rfl⟩ := h'
  exact ⟨first, isFirst, last, isLast, rfl⟩

theorem Expr.span_mem_spans (e : Expr) :
    e.span ∈ e.spans := by
  cases e with
  | conditional token condition consequence alternative =>
      cases alternative <;> simp [Expr.spans]
  | _ => simp [Expr.spans, Expr.span]

theorem Block.span_mem_spans (b : Block) :
    b.span ∈ b.spans := by
  cases b
  simp [Block.spans, Block.span]

end Joins

namespace Concrete

mutual

/-- The bytes of all nodes of an expression are those between two of its tokens. -/
theorem Expr.joins_spans :
    ∀ e : Expr, ∀ span ∈ e.erase.spans, span.Joins e.tokens
  | .identifier _ | .integer _ | .float _ | .boolean _ => by
      simp only [Expr.erase, LetLang.Expr.spans, Expr.tokens, List.forall_mem_singleton]
      exact Token.joins_span (List.mem_singleton.mpr rfl)
  | .unary operator right => by
      have inside (span : Span) (mem : span ∈ right.erase.spans) :=
        (right.joins_spans span mem).mono (List.subset_cons_self operator.token right.tokens)
      have word : operator.token.span.Joins (operator.token :: right.tokens) :=
        Token.joins_span List.mem_cons_self
      simp only [Expr.erase, LetLang.Expr.spans, Expr.tokens, List.forall_mem_cons]
      exact ⟨word, word.through (inside _ (LetLang.Expr.span_mem_spans _)), inside⟩
  | .binary left operator right => by
      have onLeft (span : Span) (mem : span ∈ left.erase.spans) :=
        (left.joins_spans span mem).mono
          (fun _ mem => List.mem_append_left (operator.token :: right.tokens) mem)
      have onRight (span : Span) (mem : span ∈ right.erase.spans) :=
        (right.joins_spans span mem).mono
          (fun _ mem => List.mem_append_right left.tokens (List.mem_cons_of_mem operator.token mem))
      simp only [Expr.erase, LetLang.Expr.spans, Expr.tokens, List.forall_mem_cons,
        List.forall_mem_append]
      refine ⟨Token.joins_span (by simp), ?_, onLeft, onRight⟩
      exact (onLeft _ (LetLang.Expr.span_mem_spans _)).through
        (onRight _ (LetLang.Expr.span_mem_spans _))
  | .group opening inner closing => by
      intro span mem
      exact (inner.joins_spans span mem).mono (fun _ mem => by simp [Expr.tokens, mem])
  | .conditional word opening condition closing consequence alternative => by
      have whole : word.token.span.Joins
          (Expr.conditional word opening condition closing consequence alternative).tokens :=
        Token.joins_span List.mem_cons_self
      have onCondition (span : Span) (mem : span ∈ condition.erase.spans) : span.Joins
          (Expr.conditional word opening condition closing consequence alternative).tokens :=
        (condition.joins_spans span mem).mono (fun _ mem => by simp [Expr.tokens, mem])
      have onConsequence (span : Span) (mem : span ∈ consequence.erase.spans) : span.Joins
          (Expr.conditional word opening condition closing consequence alternative).tokens :=
        (consequence.joins_spans span mem).mono (fun _ mem => by simp [Expr.tokens, mem])
      cases alternative with
      | absent =>
          simp only [Expr.erase, Alternative.erase, LetLang.Expr.spans, List.forall_mem_cons,
            List.forall_mem_append]
          exact ⟨whole, whole.through (onConsequence _ (Block.span_mem_spans _)), onCondition,
            onConsequence⟩
      | present other block =>
          have onBlock (span : Span) (mem : span ∈ block.erase.spans) : span.Joins
              (Expr.conditional word opening condition closing consequence
                (.present other block)).tokens :=
            (block.joins_spans span mem).mono
              (fun _ mem => by simp [Expr.tokens, Alternative.tokens, mem])
          simp only [Expr.erase, Alternative.erase, LetLang.Expr.spans, List.forall_mem_cons,
            List.forall_mem_append]
          exact ⟨whole, whole.through (onBlock _ (Block.span_mem_spans _)), onCondition,
            onConsequence, onBlock⟩

theorem Block.joins_spans :
    ∀ b : Block, ∀ span ∈ b.erase.spans, span.Joins b.tokens
  | .mk opening statements closing => by
      have first : opening.token ∈ (Block.mk opening statements closing).tokens :=
        List.mem_cons_self
      have last : closing.token ∈ (Block.mk opening statements closing).tokens := by
        simp [Block.tokens]
      simp only [Block.erase, LetLang.Block.spans, List.forall_mem_cons]
      refine ⟨Token.joins_span first, ⟨_, first, _, last, rfl⟩, ?_⟩
      intro span mem
      exact (Stmt.joins_spansOf statements span mem).mono
        (fun _ mem => by simp [Block.tokens, mem])

theorem Stmt.joins_spans :
    ∀ s : Stmt, ∀ span ∈ s.erase.spans, span.Joins s.tokens
  | .binding word name sign value semicolon => by
      have whole : word.token.span.Joins (Stmt.binding word name sign value semicolon).tokens :=
        Token.joins_span List.mem_cons_self
      have onValue (span : Span) (mem : span ∈ value.erase.spans) :
          span.Joins (Stmt.binding word name sign value semicolon).tokens :=
        (value.joins_spans span mem).mono (fun _ mem => by simp [Stmt.tokens, mem])
      simp only [Stmt.erase, LetLang.Stmt.spans, List.forall_mem_cons]
      refine ⟨whole, whole.through (onValue _ (LetLang.Expr.span_mem_spans _)), ?_, onValue⟩
      exact Token.joins_span (by simp [Stmt.tokens])
  | .returningNothing word semicolon => by
      simp only [Stmt.erase, LetLang.Stmt.spans, List.forall_mem_singleton]
      exact Token.joins_span List.mem_cons_self
  | .returning word value semicolon => by
      have whole : word.token.span.Joins (Stmt.returning word value semicolon).tokens :=
        Token.joins_span List.mem_cons_self
      have onValue (span : Span) (mem : span ∈ value.erase.spans) :
          span.Joins (Stmt.returning word value semicolon).tokens :=
        (value.joins_spans span mem).mono (fun _ mem => by simp [Stmt.tokens, mem])
      simp only [Stmt.erase, LetLang.Stmt.spans, List.forall_mem_cons]
      exact ⟨whole, whole.through (onValue _ (LetLang.Expr.span_mem_spans _)), onValue⟩
  | .expression value semicolon => by
      have onValue (span : Span) (mem : span ∈ value.erase.spans) :
          span.Joins (Stmt.expression value semicolon).tokens :=
        (value.joins_spans span mem).mono (fun _ mem => by simp [Stmt.tokens, mem])
      have first : value.first ∈ value.tokens := by
        obtain ⟨rest, tokens⟩ := value.exists_tokens_eq
        rw [tokens]
        exact List.mem_cons_self
      simp only [Stmt.erase, LetLang.Stmt.spans, List.forall_mem_cons]
      refine ⟨(Token.joins_span first).mono (fun _ mem => by simp [Stmt.tokens, mem]), ?_, onValue⟩
      exact onValue _ (LetLang.Expr.span_mem_spans _)

theorem Stmt.joins_spansOf :
    ∀ all : List Stmt, ∀ span ∈ LetLang.Stmt.spansOf (Stmt.eraseAll all),
      span.Joins (Stmt.tokensOf all)
  | [] => by simp [Stmt.eraseAll, LetLang.Stmt.spansOf]
  | first :: rest => by
      simp only [Stmt.eraseAll, LetLang.Stmt.spansOf, Stmt.tokensOf, List.forall_mem_append]
      exact ⟨fun span mem => (first.joins_spans span mem).mono (List.subset_append_left _ _),
        fun span mem => (Stmt.joins_spansOf rest span mem).mono (List.subset_append_right _ _)⟩

end

end Concrete

end LetLang
