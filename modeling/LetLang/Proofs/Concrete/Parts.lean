import LetLang.Proofs.Concrete.Tree

/-!
# The expressions of a program

A program holds the values of its statements and all that stands inside them.  No expression is
nested more deeply than one that it stands in, so a bound on the values of the statements is one
on all expressions.
-/

namespace LetLang
namespace Concrete

mutual

/-- An expression and all expressions in it. -/
def Expr.parts : Expr → List Expr
  | .identifier name => [.identifier name]
  | .integer literal => [.integer literal]
  | .float literal => [.float literal]
  | .boolean word => [.boolean word]
  | .unary operator right => .unary operator right :: right.parts
  | .binary left operator right =>
      .binary left operator right :: (left.parts ++ right.parts)
  | .group opening inner closing => .group opening inner closing :: inner.parts
  | .conditional word opening condition closing consequence alternative =>
      .conditional word opening condition closing consequence alternative ::
        (condition.parts ++ (consequence.parts ++ alternative.parts))

/-- The expressions in an alternative. -/
def Alternative.parts : Alternative → List Expr
  | .absent => []
  | .present _ block => block.parts

/-- The expressions in a block. -/
def Block.parts : Block → List Expr
  | .mk _ statements _ => Stmt.partsOf statements

/-- The expressions in a statement. -/
def Stmt.parts : Stmt → List Expr
  | .binding _ _ _ value _ => value.parts
  | .returningNothing _ _ => []
  | .returning _ value _ => value.parts
  | .expression value _ => value.parts

/-- The expressions in some statements. -/
def Stmt.partsOf : List Stmt → List Expr
  | [] => []
  | first :: rest => first.parts ++ Stmt.partsOf rest

end

/-- The expressions of a program, on every level of nesting. -/
def Program.expressions (program : Program) : List Expr :=
  Stmt.partsOf program.statements

/-- The greatest nesting of the statements of a program. -/
def Program.nesting (program : Program) : Nat :=
  Stmt.nestingOf program.statements

section Bounds

theorem Expr.mem_parts (e : Expr) :
    e ∈ e.parts := by
  cases e <;> simp [Expr.parts]

mutual

theorem Expr.nesting_le_of_mem :
    ∀ (e : Expr), ∀ part ∈ e.parts, part.nesting ≤ e.nesting
  | .identifier _ => by simp [Expr.parts]
  | .integer _ => by simp [Expr.parts]
  | .float _ => by simp [Expr.parts]
  | .boolean _ => by simp [Expr.parts]
  | .unary _ right => by
      simp only [Expr.parts, List.forall_mem_cons, Expr.nesting]
      refine ⟨Nat.le_refl _, fun part mem => ?_⟩
      have := right.nesting_le_of_mem part mem
      omega
  | .binary left _ right => by
      simp only [Expr.parts, List.forall_mem_cons, List.forall_mem_append, Expr.nesting]
      refine ⟨Nat.le_refl _, fun part mem => ?_, fun part mem => ?_⟩
      · have := left.nesting_le_of_mem part mem
        omega
      · have := right.nesting_le_of_mem part mem
        omega
  | .group _ inner _ => by
      simp only [Expr.parts, List.forall_mem_cons, Expr.nesting]
      refine ⟨Nat.le_refl _, fun part mem => ?_⟩
      have := inner.nesting_le_of_mem part mem
      omega
  | .conditional _ _ condition _ consequence alternative => by
      simp only [Expr.parts, List.forall_mem_cons, List.forall_mem_append, Expr.nesting]
      refine ⟨Nat.le_refl _, fun part mem => ?_, fun part mem => ?_, fun part mem => ?_⟩
      · have := condition.nesting_le_of_mem part mem
        omega
      · have := consequence.nesting_le_of_mem part mem
        omega
      · have := alternative.nesting_le_of_mem part mem
        omega

theorem Alternative.nesting_le_of_mem :
    ∀ (a : Alternative), ∀ part ∈ a.parts, part.nesting ≤ a.nesting
  | .absent => by simp [Alternative.parts]
  | .present _ block => block.nesting_le_of_mem

theorem Block.nesting_le_of_mem :
    ∀ (b : Block), ∀ part ∈ b.parts, part.nesting ≤ b.nesting
  | .mk _ statements _ => Stmt.nestingOf_le_of_mem statements

theorem Stmt.nesting_le_of_mem :
    ∀ (s : Stmt), ∀ part ∈ s.parts, part.nesting ≤ s.nesting
  | .binding _ _ _ value _ => value.nesting_le_of_mem
  | .returningNothing _ _ => by simp [Stmt.parts]
  | .returning _ value _ => value.nesting_le_of_mem
  | .expression value _ => value.nesting_le_of_mem

theorem Stmt.nestingOf_le_of_mem :
    ∀ (all : List Stmt), ∀ part ∈ Stmt.partsOf all, part.nesting ≤ Stmt.nestingOf all
  | [] => by simp [Stmt.partsOf]
  | first :: rest => by
      simp only [Stmt.partsOf, List.forall_mem_append, Stmt.nestingOf]
      refine ⟨fun part mem => ?_, fun part mem => ?_⟩
      · have := first.nesting_le_of_mem part mem
        omega
      · have := Stmt.nestingOf_le_of_mem rest part mem
        omega

end

/-- The nesting of a statement is that of one of its expressions. -/
theorem Stmt.nesting_le_of_parts {levels : Nat} :
    ∀ (s : Stmt), (∀ part ∈ s.parts, part.nesting ≤ levels) → s.nesting ≤ levels
  | .binding _ _ _ value _, h => h value value.mem_parts
  | .returningNothing _ _, _ => Nat.zero_le _
  | .returning _ value _, h => h value value.mem_parts
  | .expression value _, h => h value value.mem_parts

theorem Stmt.nestingOf_le_of_parts {levels : Nat} {all : List Stmt}
    (h : ∀ part ∈ Stmt.partsOf all, part.nesting ≤ levels) :
    Stmt.nestingOf all ≤ levels := by
  induction all with
  | nil =>
      exact Nat.zero_le _
  | cons first rest ih =>
      obtain ⟨onFirst, onRest⟩ := List.forall_mem_append.mp h
      exact Nat.max_le.mpr ⟨first.nesting_le_of_parts onFirst, ih onRest⟩

/-- Some levels suffice for a program exactly if they suffice for all its expressions. -/
theorem Program.nesting_le_iff {program : Program} {levels : Nat} :
    program.nesting ≤ levels ↔ ∀ e ∈ program.expressions, e.nesting ≤ levels := by
  constructor
  · intro h e mem
    exact Nat.le_trans (Stmt.nestingOf_le_of_mem _ e mem) h
  · exact Stmt.nestingOf_le_of_parts

end Bounds

end Concrete
end LetLang
