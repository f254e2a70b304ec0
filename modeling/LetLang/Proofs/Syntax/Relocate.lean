import LetLang.Proofs.Token.Seam
import LetLang.Syntax.Tree
import LetLang.Diagnostic.Basic

/-!
# Moving a syntax tree in its text

`relocate` changes every byte offset in a syntax tree, or in a diagnostic, by one function, and
leaves all else as it is.
-/

namespace LetLang

/-- A name whose bytes have been moved. -/
def Identifier.relocate (place : Nat → Nat) (name : Identifier) : Identifier :=
  { name with token := name.token.relocate place }

mutual

/-- An expression whose bytes have been moved. -/
def Expr.relocate (place : Nat → Nat) : Expr → Expr
  | .identifier name => .identifier (name.relocate place)
  | .integer token value => .integer (token.relocate place) value
  | .float token value => .float (token.relocate place) value
  | .boolean token value => .boolean (token.relocate place) value
  | .unary token operator right => .unary (token.relocate place) operator (right.relocate place)
  | .binary token operator left right =>
      .binary (token.relocate place) operator (left.relocate place) (right.relocate place)
  | .conditional token condition consequence none =>
      .conditional (token.relocate place) (condition.relocate place)
        (consequence.relocate place) none
  | .conditional token condition consequence (some alternative) =>
      .conditional (token.relocate place) (condition.relocate place)
        (consequence.relocate place) (some (alternative.relocate place))

/-- A block whose bytes have been moved. -/
def Block.relocate (place : Nat → Nat) : Block → Block
  | .mk token span statements =>
      .mk (token.relocate place) (span.relocate place) (Stmt.relocateAll place statements)

/-- A statement whose bytes have been moved. -/
def Stmt.relocate (place : Nat → Nat) : Stmt → Stmt
  | .binding token name value =>
      .binding (token.relocate place) (name.relocate place) (value.relocate place)
  | .returning token none => .returning (token.relocate place) none
  | .returning token (some value) =>
      .returning (token.relocate place) (some (value.relocate place))
  | .expression token value => .expression (token.relocate place) (value.relocate place)
  | .block inner => .block (inner.relocate place)

/-- Some statements whose bytes have been moved. -/
def Stmt.relocateAll (place : Nat → Nat) : List Stmt → List Stmt
  | [] => []
  | first :: rest => first.relocate place :: Stmt.relocateAll place rest

end

/-- A diagnostic whose place has been moved. -/
def Diagnostic.relocate (place : Nat → Nat) (diagnostic : Diagnostic) : Diagnostic :=
  { diagnostic with position := place diagnostic.position }

section Relocate

variable (place : Nat → Nat)

theorem Stmt.relocateAll_eq_map (all : List Stmt) :
    Stmt.relocateAll place all = all.map (Stmt.relocate place) := by
  induction all with
  | nil =>
      rfl
  | cons first rest ih =>
      rw [Stmt.relocateAll, ih, List.map_cons]

theorem Expr.relocate_conditional
    (token : Token) (condition : Expr) (consequence : Block) (alternative : Option Block) :
    (Expr.conditional token condition consequence alternative).relocate place =
      .conditional (token.relocate place) (condition.relocate place)
        (consequence.relocate place) (alternative.map (Block.relocate place)) := by
  cases alternative <;> simp only [Expr.relocate, Option.map]

end Relocate

section Identity

mutual

theorem Expr.relocate_id :
    ∀ e : Expr, e.relocate id = e
  | .identifier _ | .integer _ _ | .float _ _ | .boolean _ _ => rfl
  | .unary _ _ right => by
      rw [Expr.relocate, right.relocate_id]
      rfl
  | .binary _ _ left right => by
      rw [Expr.relocate, left.relocate_id, right.relocate_id]
      rfl
  | .conditional _ condition consequence none => by
      rw [Expr.relocate, condition.relocate_id, consequence.relocate_id]
      rfl
  | .conditional _ condition consequence (some alternative) => by
      rw [Expr.relocate, condition.relocate_id, consequence.relocate_id, alternative.relocate_id]
      rfl

theorem Block.relocate_id :
    ∀ b : Block, b.relocate id = b
  | .mk _ _ statements => by
      rw [Block.relocate, Stmt.relocateAll_id statements]
      rfl

theorem Stmt.relocate_id :
    ∀ s : Stmt, s.relocate id = s
  | .binding _ _ value => by
      rw [Stmt.relocate, value.relocate_id]
      rfl
  | .returning _ none => rfl
  | .returning _ (some value) => by
      rw [Stmt.relocate, value.relocate_id]
      rfl
  | .expression _ value => by
      rw [Stmt.relocate, value.relocate_id]
      rfl
  | .block inner => by
      rw [Stmt.relocate, inner.relocate_id]

theorem Stmt.relocateAll_id :
    ∀ all : List Stmt, Stmt.relocateAll id all = all
  | [] => rfl
  | first :: rest => by
      rw [Stmt.relocateAll, first.relocate_id, Stmt.relocateAll_id rest]

end

theorem Stmt.map_relocate_id (all : List Stmt) :
    all.map (Stmt.relocate id) = all := by
  rw [← Stmt.relocateAll_eq_map, Stmt.relocateAll_id]

theorem Diagnostic.map_relocate_id (all : List Diagnostic) :
    all.map (Diagnostic.relocate id) = all :=
  List.map_id all

end Identity

end LetLang
