import LetLang.Proofs.Parser.Acceptance
import LetLang.Proofs.Concrete.Viable

/-!
# The height of a tree

**Input.** A source text, which may have diagnostics.

**Results.** The limit on nesting is one on the expressions that are read one inside the other.  In
the tree it bounds how many expressions lie on a path downwards, if those are left out that are the
left operand of an operation: they were there before the operation was read.  With them a path may
be of any length, and a text whose tree has one need not have a diagnostic.
-/

namespace LetLang

section Height

mutual

/-- The greatest number of expressions on a path from an expression downwards, its left operands
counted with a weight. -/
def Expr.longestPath (weight : Nat) : Expr → Nat
  | .identifier _ => 1
  | .integer _ _ => 1
  | .float _ _ => 1
  | .boolean _ _ => 1
  | .unary _ _ right => 1 + right.longestPath weight
  | .binary _ _ left right =>
      max (weight + left.longestPath weight) (1 + right.longestPath weight)
  | .conditional _ condition consequence none =>
      1 + max (condition.longestPath weight) (consequence.longestPath weight)
  | .conditional _ condition consequence (some alternative) =>
      1 + max (condition.longestPath weight)
        (max (consequence.longestPath weight) (alternative.longestPath weight))

/-- The greatest number of expressions on a path from a value of the statements of a block
downwards. -/
def Block.longestPath (weight : Nat) : Block → Nat
  | .mk _ _ statements => Stmt.longestPathOf weight statements

/-- The greatest number of expressions on a path from the value of a statement downwards, which is
zero if it has none. -/
def Stmt.longestPath (weight : Nat) : Stmt → Nat
  | .binding _ _ value => value.longestPath weight
  | .returning _ none => 0
  | .returning _ (some value) => value.longestPath weight
  | .expression _ value => value.longestPath weight
  | .block inner => inner.longestPath weight

/-- The greatest number of expressions on a path from a value of some statements downwards. -/
def Stmt.longestPathOf (weight : Nat) : List Stmt → Nat
  | [] => 0
  | first :: rest => max (first.longestPath weight) (Stmt.longestPathOf weight rest)

end

/-- How many expressions lie on a path from the value of a statement to a leaf, at most. -/
def Stmt.height (s : Stmt) : Nat :=
  s.longestPath 1

/-- How many expressions lie on a path from the value of a statement to a leaf, at most, if those
are left out that are the left operand of an operation. -/
def Stmt.levels (s : Stmt) : Nat :=
  s.longestPath 0

theorem Stmt.longestPathOf_le_iff {weight count : Nat} {all : List Stmt} :
    Stmt.longestPathOf weight all ≤ count ↔ ∀ s ∈ all, s.longestPath weight ≤ count := by
  induction all with
  | nil =>
      simp [Stmt.longestPathOf]
  | cons first rest ih =>
      rw [Stmt.longestPathOf, Nat.max_le, ih, List.forall_mem_cons]

end Height

namespace Concrete

section Levels

mutual

/-- A group is no expression of the tree, so the tree has no more levels than are read. -/
theorem Expr.levels_erase_le :
    ∀ e : Expr, e.erase.longestPath 0 ≤ e.nesting
  | .identifier _ => Nat.le_refl _
  | .integer _ => Nat.le_refl _
  | .float _ => Nat.le_refl _
  | .boolean _ => Nat.le_refl _
  | .unary _ right => by
      have := right.levels_erase_le
      simp only [Expr.erase, LetLang.Expr.longestPath, Expr.nesting]
      omega
  | .binary left _ right => by
      have := left.levels_erase_le
      have := right.levels_erase_le
      simp only [Expr.erase, LetLang.Expr.longestPath, Expr.nesting]
      omega
  | .group _ inner _ => by
      have := inner.levels_erase_le
      simp only [Expr.erase, Expr.nesting]
      omega
  | .conditional _ _ condition _ consequence .absent => by
      have := condition.levels_erase_le
      have := consequence.levels_erase_le
      simp only [Expr.erase, Alternative.erase, LetLang.Expr.longestPath, Expr.nesting]
      omega
  | .conditional _ _ condition _ consequence (.present _ alternative) => by
      have := condition.levels_erase_le
      have := consequence.levels_erase_le
      have := alternative.levels_erase_le
      simp only [Expr.erase, Alternative.erase, LetLang.Expr.longestPath, Expr.nesting,
        Alternative.nesting]
      omega

theorem Block.levels_erase_le :
    ∀ b : Block, b.erase.longestPath 0 ≤ b.nesting
  | .mk _ statements _ => Stmt.levelsOf_eraseAll_le statements

theorem Stmt.levels_erase_le :
    ∀ s : Stmt, s.erase.longestPath 0 ≤ s.nesting
  | .binding _ _ _ value _ => value.levels_erase_le
  | .returningNothing _ _ => Nat.le_refl _
  | .returning _ value _ => value.levels_erase_le
  | .expression value _ => value.levels_erase_le

theorem Stmt.levelsOf_eraseAll_le :
    ∀ all : List Stmt, LetLang.Stmt.longestPathOf 0 (Stmt.eraseAll all) ≤ Stmt.nestingOf all
  | [] => Nat.le_refl _
  | first :: rest => by
      have := first.levels_erase_le
      have := Stmt.levelsOf_eraseAll_le rest
      simp only [Stmt.eraseAll, LetLang.Stmt.longestPathOf, Stmt.nestingOf]
      omega

end

end Levels

section Chain

open Token Text

/-- A minus sign between two operands. -/
def chainSign : TokenOf binaryOperators :=
  ⟨⟨.minus, "-", ⟨0, 1⟩⟩, by decide⟩

/-- The text `x`, with `-x` behind it a number of times. -/
def chainText : Nat → List Char
  | 0 => ['x']
  | count + 1 => chainText count ++ (['-'] ++ ['x'])

/-- The expression that stands in this text. -/
def chain : Nat → Expr
  | 0 => .identifier (TokenOf.anyName.placed 0)
  | count + 1 =>
      let place := byteLength (chainText count)
      .binary (chain count) (chainSign.placed place)
        (.identifier (TokenOf.anyName.placed (place + 1)))

theorem spelled_chainSign :
    Spelled chainSign.token.kind chainSign.token.literal.toList := by
  refine ⟨.operator rfl, ?_⟩
  rintro c ⟨⟩
  decide

theorem scans_chainText (count : Nat) {rest : List Char} (parted : ∀ c ∈ rest.head?, Separates c) :
    Scans 0 (chainText count) rest (chain count).tokens := by
  induction count generalizing rest with
  | zero =>
      exact TokenOf.isSpelled_anyName.scans
        (fun c mem => Kind.fuses_of_mem_runs (by decide) (parted c mem))
  | succ count ih =>
      have before := @ih (['-'] ++ ['x'] ++ rest) (by
        rintro c ⟨⟩
        decide)
      have sign : Scans (0 + byteLength (chainText count)) ['-'] (['x'] ++ rest) _ :=
        spelled_chainSign.scans (fun _ _ => Kind.fuses_of_mem_binary chainSign.isOf)
      have name : Scans (0 + byteLength (chainText count) + byteLength ['-']) ['x'] rest _ :=
        TokenOf.isSpelled_anyName.scans
          (fun c mem => Kind.fuses_of_mem_runs (by decide) (parted c mem))
      have whole := before.append (sign.append name)
      rw [Nat.zero_add] at whole
      exact whole

theorem chain_wellFormed (count : Nat) :
    (chain count).WellFormed ∧ chainSign.token.kind.power ≤ (chain count).level := by
  induction count with
  | zero =>
      exact ⟨trivial, by decide⟩
  | succ count ih =>
      have weak : chainSign.token.kind.power < .unary := by decide
      exact ⟨⟨ih.2, weak, ih.1, trivial⟩, Nat.le_refl _⟩

theorem chain_nesting_le (count : Nat) :
    (chain count).nesting ≤ 2 := by
  induction count with
  | zero =>
      decide
  | succ count ih =>
      simp only [chain, Expr.nesting]
      omega

theorem chain_height (count : Nat) :
    (chain count).erase.longestPath 1 = 1 + count := by
  induction count with
  | zero =>
      rfl
  | succ count ih =>
      simp only [chain, Expr.erase, LetLang.Expr.longestPath, ih]
      omega

end Chain

end Concrete

section Results

/-- On every path from the value of a statement downwards, no more expressions than the limit allows
are not the left operand of an operation. -/
theorem parse_levels_le (source : String) :
    ∀ s ∈ (parse source).program.statements, s.levels ≤ 100 := by
  obtain ⟨program, same, _, few, _⟩ := Concrete.Program.exists_source source
  rw [same]
  exact Stmt.longestPathOf_le_iff.mp
    (Nat.le_trans (Concrete.Stmt.levelsOf_eraseAll_le program.statements) few)

/-- Operands on both sides of operations, a unary one and a conditional. -/
theorem parse_levels_le_sum :
    ∃ s ∈ (parse "-a * b + (c - if (d) \x7b e \x7d) * f").program.statements,
      s.levels ≤ 100 := by
  have nonempty :
      (parse "-a * b + (c - if (d) \x7b e \x7d) * f").program.statements ≠ [] := by
    decide +kernel
  obtain ⟨s, mem⟩ := List.exists_mem_of_ne_nil _ nonempty
  exact ⟨s, mem, parse_levels_le _ s mem⟩

/-- A difference of any number of names has no diagnostic, and the height of its tree is their
number. -/
theorem parse_chainText (count : Nat) :
    (parse (String.ofList (Concrete.chainText count))).diagnostics = [] ∧
      ∃ s ∈ (parse (String.ofList (Concrete.chainText count))).program.statements,
        s.height = 1 + count := by
  let program : Concrete.Program := ⟨[.expression (Concrete.chain count) none]⟩
  have scanned : Token.scan 0 (String.ofList (Concrete.chainText count)).toList =
      program.tokens := by
    have scans := @Concrete.scans_chainText count [] (by simp)
    rw [Token.Scans, List.append_nil, Token.scan_nil, List.append_nil] at scans
    simpa [program, Concrete.Program.tokens, Concrete.Stmt.tokensOf, Concrete.Stmt.tokens]
      using scans
  have wellFormed : program.WellFormed :=
    ⟨(Concrete.chain_wellFormed count).1, trivial, trivial⟩
  have few : program.nesting ≤ Parser.nestingLimit := by
    have := Concrete.chain_nesting_le count
    simp only [program, Concrete.Program.nesting, Concrete.Stmt.nestingOf, Concrete.Stmt.nesting,
      Parser.nestingLimit]
    omega
  rcases Concrete.Program.parse_cases wellFormed scanned with ⟨_, read, none⟩ | ⟨many, _⟩
  · refine ⟨none, .expression (Concrete.chain count).first (Concrete.chain count).erase, ?_,
      Concrete.chain_height count⟩
    rw [read]
    exact List.mem_singleton.mpr rfl
  · exact absurd few many

/-- A difference of a hundred and one names has no diagnostic, and its tree is higher than the
limit. -/
theorem exists_height_gt_limit :
    (parse (String.ofList (Concrete.chainText 100))).diagnostics = [] ∧
      ∃ s ∈ (parse (String.ofList (Concrete.chainText 100))).program.statements,
        100 < s.height := by
  obtain ⟨none, s, mem, height⟩ := parse_chainText 100
  exact ⟨none, s, mem, by omega⟩

end Results

end LetLang
