import LetLang.Syntax.Render

/-!
# Syntax trees without their places

Where a syntax tree was found in a text is no part of its structure.  `bare` takes all byte
offsets out of a tree, and the token that a statement made of an expression is named by, which is
the first one of the expression with the parentheses that are not kept.  What is left decides the
text of a tree.

`renderedNesting` says how many expressions have to be read one inside the other to read this
text.  Every operation adds the level of its parentheses to that of its operand.
-/

namespace LetLang

section Bare

/-- A token without the bytes that it covers. -/
def Token.bare (token : Token) : Token :=
  { token with span := ⟨0, 0⟩ }

/-- A name without the bytes that it covers. -/
def Identifier.bare (name : Identifier) : Identifier :=
  { name with token := name.token.bare }

mutual

/-- An expression without its places. -/
def Expr.bare : Expr → Expr
  | .identifier name => .identifier name.bare
  | .integer token value => .integer token.bare value
  | .float token value => .float token.bare value
  | .boolean token value => .boolean token.bare value
  | .unary token operator right => .unary token.bare operator right.bare
  | .binary token operator left right =>
      .binary token.bare operator left.bare right.bare
  | .conditional token condition consequence none =>
      .conditional token.bare condition.bare consequence.bare none
  | .conditional token condition consequence (some alternative) =>
      .conditional token.bare condition.bare consequence.bare (some alternative.bare)

/-- A block without its places. -/
def Block.bare : Block → Block
  | .mk token _ statements => .mk token.bare ⟨0, 0⟩ (Stmt.bareAll statements)

/-- A statement without its places, and without the token that an expression is named by. -/
def Stmt.bare : Stmt → Stmt
  | .binding token name value => .binding token.bare name.bare value.bare
  | .returning token none => .returning token.bare none
  | .returning token (some value) => .returning token.bare (some value.bare)
  | .expression _ value => .expression (.endOfInput 0) value.bare
  | .block inner => .block inner.bare

/-- Some statements without their places. -/
def Stmt.bareAll : List Stmt → List Stmt
  | [] => []
  | first :: rest => first.bare :: Stmt.bareAll rest

end

theorem Stmt.bareAll_eq_map (all : List Stmt) :
    Stmt.bareAll all = all.map Stmt.bare := by
  induction all with
  | nil =>
      rfl
  | cons first rest ih =>
      rw [Stmt.bareAll, ih, List.map_cons]

mutual

theorem Expr.render_bare :
    ∀ e : Expr, e.bare.render = e.render
  | .identifier _ => rfl
  | .integer _ _ => rfl
  | .float _ _ => rfl
  | .boolean _ _ => rfl
  | .unary _ _ right => by
      simp only [Expr.bare, Expr.render, right.render_bare]
  | .binary _ _ left right => by
      simp only [Expr.bare, Expr.render, left.render_bare, right.render_bare]
  | .conditional _ condition consequence none => by
      simp only [Expr.bare, Expr.render, condition.render_bare, consequence.render_bare,
        Token.bare]
  | .conditional _ condition consequence (some alternative) => by
      simp only [Expr.bare, Expr.render, condition.render_bare, consequence.render_bare,
        alternative.render_bare, Token.bare]

theorem Block.render_bare :
    ∀ b : Block, b.bare.render = b.render
  | .mk _ _ statements => by
      simp only [Block.bare, Block.render, Stmt.renderSpaced_bareAll statements]

theorem Stmt.render_bare :
    ∀ s : Stmt, s.bare.render = s.render
  | .binding _ _ value => by
      simp only [Stmt.bare, Stmt.render, value.render_bare, Token.bare, Identifier.bare]
  | .returning _ none => rfl
  | .returning _ (some value) => by
      simp only [Stmt.bare, Stmt.render, value.render_bare, Token.bare]
  | .expression _ value => by
      simp only [Stmt.bare, Stmt.render, value.render_bare]
  | .block inner => by
      simp only [Stmt.bare, Stmt.render, inner.render_bare]

theorem Stmt.renderSpaced_bareAll :
    ∀ all : List Stmt, Stmt.renderSpaced (Stmt.bareAll all) = Stmt.renderSpaced all
  | [] => rfl
  | first :: rest => by
      simp only [Stmt.bareAll, Stmt.renderSpaced, first.render_bare,
        Stmt.renderSpaced_bareAll rest]

end

/-- Trees of one structure have one text. -/
theorem Stmt.render_eq_of_bare {s t : Stmt} (h : s.bare = t.bare) :
    s.render = t.render := by
  rw [← s.render_bare, h, t.render_bare]

theorem Stmt.map_render_eq_of_bare {all others : List Stmt}
    (h : all.map Stmt.bare = others.map Stmt.bare) :
    all.map Stmt.render = others.map Stmt.render := by
  have texts (rows : List Stmt) : rows.map Stmt.render = (rows.map Stmt.bare).map Stmt.render := by
    rw [List.map_map]
    exact List.map_congr_left fun s _ => s.render_bare.symm
  rw [texts all, h, ← texts others]

end Bare

section Nesting

mutual

/-- How many expressions have to be read one inside the other to read the text of an
expression. -/
def Expr.renderedNesting : Expr → Nat
  | .identifier _ => 1
  | .integer _ _ => 1
  | .float _ _ => 1
  | .boolean _ _ => 1
  | .unary _ _ right => 2 + right.renderedNesting
  | .binary _ _ left right =>
      max (1 + left.renderedNesting) (2 + right.renderedNesting)
  | .conditional _ condition consequence none =>
      1 + max condition.renderedNesting consequence.renderedNesting
  | .conditional _ condition consequence (some alternative) =>
      1 + max condition.renderedNesting
        (max consequence.renderedNesting alternative.renderedNesting)

/-- The greatest number of levels for a value of the statements of a block. -/
def Block.renderedNesting : Block → Nat
  | .mk _ _ statements => Stmt.renderedNestingOf statements

/-- The number of levels for the value of a statement, which is zero if it has none. -/
def Stmt.renderedNesting : Stmt → Nat
  | .binding _ _ value => value.renderedNesting
  | .returning _ none => 0
  | .returning _ (some value) => value.renderedNesting
  | .expression _ value => value.renderedNesting
  | .block inner => inner.renderedNesting

/-- The greatest number of levels for a value of some statements. -/
def Stmt.renderedNestingOf : List Stmt → Nat
  | [] => 0
  | first :: rest => max first.renderedNesting (Stmt.renderedNestingOf rest)

end

theorem Stmt.renderedNestingOf_le_iff {levels : Nat} {all : List Stmt} :
    Stmt.renderedNestingOf all ≤ levels ↔ ∀ s ∈ all, s.renderedNesting ≤ levels := by
  induction all with
  | nil =>
      simp [Stmt.renderedNestingOf]
  | cons first rest ih =>
      rw [Stmt.renderedNestingOf, Nat.max_le, ih, List.forall_mem_cons]

end Nesting

end LetLang
