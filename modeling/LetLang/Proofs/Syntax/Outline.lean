import LetLang.Syntax.Tree

/-!
# Outlines

The outline of a syntax tree says which bytes its nodes cover, and what the parts of each node are,
in order: the nodes below it, and the tokens that it keeps.

**Input.** Outlines that group some tokens: a token may be left out, may be a part by itself, and
some parts one behind the other may be those of a node that covers them.

**Result.** Where the tokens stand one behind the other, the outlines nest.  The parts of a node lie
inside it, each behind the one before, and so on downwards.
-/

namespace LetLang

section Spans

/-- A span ends where another one begins, or before. -/
def Span.Before (first second : Span) : Prop :=
  first.stop ≤ second.start

/-- A span covers no byte that another one does not. -/
def Span.Inside (inner outer : Span) : Prop :=
  outer.start ≤ inner.start ∧ inner.stop ≤ outer.stop

/-- A span that is not empty begins and ends at certain offsets. -/
structure Span.Bounded (boundary : Nat → Prop) (span : Span) : Prop where
  nonempty : span.start < span.stop
  start : boundary span.start
  stop : boundary span.stop

end Spans

/-- The bytes of a node, with the outlines of its parts. -/
inductive Outline
  | node (span : Span) (parts : List Outline)

namespace Outline

/-- The bytes of a node. -/
def span : Outline → Span
  | node span _ => span

/-- The outline of a token. -/
def leaf (token : Token) : Outline :=
  .node token.span []

/-- Every node covers some bytes between two boundaries.  Its parts lie inside it, each behind the
one before. -/
inductive Nests (boundary : Nat → Prop) : Outline → Prop
  | node {span : Span} {parts : List Outline}
      (bounded : span.Bounded boundary)
      (inside : ∀ part ∈ parts, part.span.Inside span)
      (ordered : parts.Pairwise fun part next => part.span.Before next.span)
      (nested : ∀ part ∈ parts, Nests boundary part) :
      Nests boundary (.node span parts)

/-- Some outlines group tokens, in order.  Not all of the tokens need to have a part. -/
inductive Grouping : List Token → List Outline → Prop
  | nil : Grouping [] []
  | skip {tokens : List Token} {outlines : List Outline} (token : Token)
      (h : Grouping tokens outlines) :
      Grouping (token :: tokens) outlines
  | token {tokens : List Token} {outlines : List Outline} (token : Token)
      (h : Grouping tokens outlines) :
      Grouping (token :: tokens) (leaf token :: outlines)
  | node {span : Span} {tokens others : List Token} {parts outlines : List Outline}
      (inner : Grouping tokens parts)
      (first : ∃ part ∈ parts.head?, part.span.start = span.start)
      (last : ∃ part ∈ parts.getLast?, part.span.stop = span.stop)
      (h : Grouping others outlines) :
      Grouping (tokens ++ others) (.node span parts :: outlines)

section Grouping

variable {span : Span} {tokens others : List Token} {parts outlines outlines' : List Outline}

theorem Grouping.append
    (first : Grouping tokens outlines) (second : Grouping others outlines') :
    Grouping (tokens ++ others) (outlines ++ outlines') := by
  induction first with
  | nil =>
      exact second
  | skip token h ih =>
      exact ih.skip token
  | token token h ih =>
      exact ih.token token
  | node inner first last h _ ih =>
      rw [List.append_assoc]
      exact .node inner first last ih

/-- Tokens in front may be left out. -/
theorem Grouping.skipAll (skipped : List Token) (h : Grouping tokens outlines) :
    Grouping (skipped ++ tokens) outlines := by
  induction skipped with
  | nil =>
      exact h
  | cons token rest ih =>
      exact ih.skip token

/-- Some parts are those of a node. -/
theorem Grouping.whole
    (h : Grouping tokens parts)
    (first : ∃ part ∈ parts.head?, part.span.start = span.start)
    (last : ∃ part ∈ parts.getLast?, part.span.stop = span.stop) :
    Grouping tokens [.node span parts] := by
  rw [← List.append_nil tokens]
  exact .node h first last .nil

theorem Grouping.single (token : Token) :
    Grouping [token] [leaf token] :=
  .token token .nil

end Grouping

section Order

variable {boundary : Nat → Prop} {span : Span} {outline next : Outline}
variable {tokens others : List Token} {parts outlines : List Outline}

theorem Nests.bounded (h : outline.Nests boundary) :
    outline.span.Bounded boundary := by
  cases h with
  | node bounded => exact bounded

/-- Parts one behind the other begin where the first of them does, or behind. -/
theorem first_start_le
    (each : ∀ part ∈ parts, part.Nests boundary)
    (ordered : parts.Pairwise fun part next => part.span.Before next.span)
    (first : ∃ part ∈ parts.head?, part.span.start = span.start) :
    ∀ part ∈ parts, span.start ≤ part.span.start := by
  obtain ⟨begin, isFirst, same⟩ := first
  obtain ⟨behind, rfl⟩ := List.head?_eq_some_iff.mp isFirst
  rw [← same]
  intro part mem
  rcases List.mem_cons.mp mem with rfl | later
  · exact Nat.le_refl _
  · have apart : begin.span.stop ≤ part.span.start := (List.pairwise_cons.mp ordered).1 part later
    exact Nat.le_trans (Nat.le_of_lt (each begin List.mem_cons_self).bounded.nonempty) apart

/-- Parts one behind the other end where the last of them does, or before. -/
theorem stop_le_last
    (each : ∀ part ∈ parts, part.Nests boundary)
    (ordered : parts.Pairwise fun part next => part.span.Before next.span)
    (last : ∃ part ∈ parts.getLast?, part.span.stop = span.stop) :
    ∀ part ∈ parts, part.span.stop ≤ span.stop := by
  obtain ⟨finish, isLast, same⟩ := last
  obtain ⟨front, rfl⟩ := List.getLast?_eq_some_iff.mp isLast
  rw [← same]
  intro part mem
  rcases List.mem_append.mp mem with early | single
  · have apart : part.span.stop ≤ finish.span.start :=
      (List.pairwise_append.mp ordered).2.2 part early finish (List.mem_singleton.mpr rfl)
    exact Nat.le_trans apart (Nat.le_of_lt (each finish (by simp)).bounded.nonempty)
  · exact Nat.le_of_eq (congrArg (fun part => part.span.stop) (List.mem_singleton.mp single))

/-- A node nests if its parts do, and if it begins with the first of them and ends with the last. -/
theorem nests_of_parts
    (each : ∀ part ∈ parts, part.Nests boundary)
    (ordered : parts.Pairwise fun part next => part.span.Before next.span)
    (first : ∃ part ∈ parts.head?, part.span.start = span.start)
    (last : ∃ part ∈ parts.getLast?, part.span.stop = span.stop) :
    (Outline.node span parts).Nests boundary := by
  have starts := first_start_le each ordered first
  have stops := stop_le_last each ordered last
  obtain ⟨begin, isFirst, sameStart⟩ := first
  obtain ⟨finish, isLast, sameStop⟩ := last
  have memFirst := List.mem_of_head? isFirst
  have onFirst := (each begin memFirst).bounded
  have onLast := (each finish (List.mem_of_getLast? isLast)).bounded
  refine .node ⟨?_, sameStart ▸ onFirst.start, sameStop ▸ onLast.stop⟩
    (fun part mem => ⟨starts part mem, stops part mem⟩) ordered each
  rw [← sameStart]
  exact Nat.lt_of_lt_of_le onFirst.nonempty (stops begin memFirst)

/-- Tokens that stand one behind the other, each of them between two boundaries. -/
structure InRow (boundary : Nat → Prop) (tokens : List Token) : Prop where
  bounded : ∀ token ∈ tokens, token.span.Bounded boundary
  ordered : tokens.Pairwise fun token next => token.span.Before next.span

theorem InRow.sublist (row : InRow boundary tokens) (less : others.Sublist tokens) :
    InRow boundary others :=
  ⟨fun token mem => row.bounded token (less.subset mem), row.ordered.sublist less⟩

/-- An outline that nests, and begins and ends with one of some tokens. -/
structure FitsIn (boundary : Nat → Prop) (tokens : List Token) (outline : Outline) : Prop where
  nests : outline.Nests boundary
  first : ∃ token ∈ tokens, token.start = outline.span.start
  last : ∃ token ∈ tokens, token.stop = outline.span.stop

theorem FitsIn.mono
    (h : outline.FitsIn boundary tokens) (more : ∀ token ∈ tokens, token ∈ others) :
    outline.FitsIn boundary others := by
  obtain ⟨first, mem, start⟩ := h.first
  obtain ⟨last, mem', stop⟩ := h.last
  exact ⟨h.nests, ⟨first, more first mem, start⟩, ⟨last, more last mem', stop⟩⟩

/-- Outlines stand one behind the other if their tokens do. -/
theorem FitsIn.before
    (h : outline.FitsIn boundary tokens) (h' : next.FitsIn boundary others)
    (apart : ∀ token ∈ tokens, ∀ later ∈ others, token.span.Before later.span) :
    outline.span.Before next.span := by
  obtain ⟨last, mem, stop⟩ := h.last
  obtain ⟨first, mem', start⟩ := h'.first
  have between : last.stop ≤ first.start := apart last mem first mem'
  rw [Span.Before, ← stop, ← start]
  exact between

/-- Outlines that group tokens in a row nest, and stand one behind the other. -/
theorem Grouping.nests (h : Grouping tokens outlines) (row : InRow boundary tokens) :
    (∀ outline ∈ outlines, outline.FitsIn boundary tokens) ∧
      outlines.Pairwise fun outline next => outline.span.Before next.span := by
  induction h with
  | nil =>
      exact ⟨by simp, .nil⟩
  | @skip tokens outlines token h ih =>
      obtain ⟨each, ordered⟩ := ih (row.sublist (List.sublist_cons_self token tokens))
      exact ⟨fun outline mem => (each outline mem).mono (fun _ => List.mem_cons_of_mem _), ordered⟩
  | @token tokens outlines token h ih =>
      obtain ⟨apart, _⟩ := List.pairwise_cons.mp row.ordered
      obtain ⟨each, ordered⟩ := ih (row.sublist (List.sublist_cons_self token tokens))
      have onToken : (leaf token).FitsIn boundary [token] :=
        ⟨.node (row.bounded token List.mem_cons_self) (by simp) .nil (by simp),
          ⟨token, List.mem_singleton.mpr rfl, rfl⟩, ⟨token, List.mem_singleton.mpr rfl, rfl⟩⟩
      refine ⟨List.forall_mem_cons.mpr ⟨onToken.mono ?_, fun outline mem => ?_⟩,
        List.pairwise_cons.mpr ⟨fun outline mem => ?_, ordered⟩⟩
      · exact fun same mem => List.mem_cons.mpr (.inl (List.mem_singleton.mp mem))
      · exact (each outline mem).mono (fun _ => List.mem_cons_of_mem _)
      · refine onToken.before (each outline mem) (fun same isToken later => ?_)
        rw [List.mem_singleton.mp isToken]
        exact apart later
  | @node span tokens others parts outlines inner first last h ihInner ih =>
      obtain ⟨_, _, apart⟩ := List.pairwise_append.mp row.ordered
      obtain ⟨eachPart, orderedParts⟩ := ihInner
        (row.sublist (List.sublist_append_left tokens others))
      obtain ⟨each, ordered⟩ := ih (row.sublist (List.sublist_append_right tokens others))
      have whole : (Outline.node span parts).FitsIn boundary tokens := by
        refine ⟨nests_of_parts (fun part mem => (eachPart part mem).nests) orderedParts first last,
          ?_, ?_⟩
        · obtain ⟨part, isFirst, same⟩ := first
          rw [Outline.span, ← same]
          exact (eachPart part (List.mem_of_head? isFirst)).first
        · obtain ⟨part, isLast, same⟩ := last
          rw [Outline.span, ← same]
          exact (eachPart part (List.mem_of_getLast? isLast)).last
      refine ⟨List.forall_mem_cons.mpr ⟨whole.mono ?_, fun outline mem => ?_⟩,
        List.pairwise_cons.mpr ⟨fun outline mem => whole.before (each outline mem) apart,
          ordered⟩⟩
      · exact fun _ => List.mem_append_left _
      · exact (each outline mem).mono (fun _ => List.mem_append_right _)

end Order

end Outline

section Trees

mutual

/-- The outline of an expression: its operator or its word is a part of it, like its operands. -/
def Expr.outline : Expr → Outline
  | .identifier name => .leaf name.token
  | .integer token _ => .leaf token
  | .float token _ => .leaf token
  | .boolean token _ => .leaf token
  | .unary token operator right =>
      .node (Expr.unary token operator right).span [.leaf token, right.outline]
  | .binary token operator left right =>
      .node (Expr.binary token operator left right).span
        [left.outline, .leaf token, right.outline]
  | .conditional token condition consequence none =>
      .node (Expr.conditional token condition consequence none).span
        [.leaf token, condition.outline, consequence.outline]
  | .conditional token condition consequence (some alternative) =>
      .node (Expr.conditional token condition consequence (some alternative)).span
        [.leaf token, condition.outline, consequence.outline, alternative.outline]

/-- The outline of a block: its statements between its braces, the second of which is the last
byte. -/
def Block.outline : Block → Outline
  | .mk token span statements =>
      .node span
        (.leaf token :: (Stmt.outlines statements ++ [.node ⟨span.stop - 1, span.stop⟩ []]))

/-- The outline of a statement: the word and the name with which it begins, and its value. -/
def Stmt.outline : Stmt → Outline
  | .binding token name value =>
      .node (Stmt.binding token name value).span
        [.leaf token, .leaf name.token, value.outline]
  | .returning token none => .node token.span [.leaf token]
  | .returning token (some value) =>
      .node (Stmt.returning token (some value)).span [.leaf token, value.outline]
  | .expression _ value => .node value.span [value.outline]
  | .block inner => .node inner.span [inner.outline]

/-- The outlines of some statements, in order. -/
def Stmt.outlines : List Stmt → List Outline
  | [] => []
  | first :: rest => first.outline :: Stmt.outlines rest

end

theorem Stmt.outlines_eq_map (all : List Stmt) :
    Stmt.outlines all = all.map Stmt.outline := by
  induction all with
  | nil =>
      rfl
  | cons first rest ih =>
      rw [Stmt.outlines, ih, List.map_cons]

theorem Expr.outline_conditional
    (token : Token) (condition : Expr) (consequence : Block) (alternative : Option Block) :
    (Expr.conditional token condition consequence alternative).outline =
      .node (Expr.conditional token condition consequence alternative).span
        (.leaf token :: condition.outline :: consequence.outline ::
          (alternative.map Block.outline).toList) := by
  cases alternative <;> rfl

@[simp] theorem Expr.span_outline (e : Expr) :
    e.outline.span = e.span := by
  cases e with
  | conditional token condition consequence alternative =>
      rw [Expr.outline_conditional]
      rfl
  | _ => rfl

@[simp] theorem Block.span_outline (b : Block) :
    b.outline.span = b.span := by
  cases b
  rfl

@[simp] theorem Stmt.span_outline (s : Stmt) :
    s.outline.span = s.span := by
  cases s with
  | returning token value =>
      cases value <;> rfl
  | _ => rfl

end Trees

end LetLang
