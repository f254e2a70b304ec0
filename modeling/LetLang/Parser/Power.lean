import LetLang.Token.Basic

/-!
# Binding powers

An operator takes the operand on its left away from every operator of less power that stands
before it.  Powers are ordered; the operators of one power associate to the left.
-/

namespace LetLang

/-- The binding powers, from the weakest to the strongest.  No token has the power `unary`, with
which the operand of a unary operator is read, or the power `call`. -/
inductive Power
  | lowest
  | equality
  | comparison
  | sum
  | product
  | unary
  | call
  deriving DecidableEq, Repr, Inhabited

namespace Power

/-- The place of a power in their order. -/
def rank : Power → Nat
  | lowest => 0
  | equality => 1
  | comparison => 2
  | sum => 3
  | product => 4
  | unary => 5
  | call => 6

instance : LT Power :=
  ⟨fun weak strong => weak.rank < strong.rank⟩

instance (weak strong : Power) : Decidable (weak < strong) :=
  inferInstanceAs (Decidable (weak.rank < strong.rank))

instance : LE Power :=
  ⟨fun weak strong => weak.rank ≤ strong.rank⟩

instance (weak strong : Power) : Decidable (weak ≤ strong) :=
  inferInstanceAs (Decidable (weak.rank ≤ strong.rank))

variable {weak middle strong : Power}

protected theorem le_refl (power : Power) :
    power ≤ power :=
  Nat.le_refl power.rank

protected theorem le_trans (weaker : weak ≤ middle) (stronger : middle ≤ strong) :
    weak ≤ strong :=
  Nat.le_trans weaker stronger

protected theorem le_of_lt (stronger : weak < strong) :
    weak ≤ strong :=
  Nat.le_of_lt stronger

protected theorem lt_of_lt_of_le (weaker : weak < middle) (stronger : middle ≤ strong) :
    weak < strong :=
  Nat.lt_of_lt_of_le weaker stronger

protected theorem lt_of_le_of_lt (weaker : weak ≤ middle) (stronger : middle < strong) :
    weak < strong :=
  Nat.lt_of_le_of_lt weaker stronger

protected theorem lowest_le (power : Power) :
    lowest ≤ power :=
  Nat.zero_le power.rank

protected theorem not_lt :
    ¬ weak < strong ↔ strong ≤ weak :=
  Nat.not_lt

end Power

/-- The power with which a token binds the operand before it. -/
def Kind.power : Kind → Power
  | equal | notEqual => .equality
  | less | greater => .comparison
  | plus | minus => .sum
  | star | slash => .product
  | _ => .lowest

/-- The operand of a unary operator is read with a power that no token has. -/
theorem Kind.power_lt_unary (kind : Kind) :
    kind.power < .unary := by
  cases kind <;> decide

/-- Nothing binds the operand before the end of the input. -/
theorem Kind.ne_eof_of_lt_power {power : Power} {kind : Kind} (h : power < kind.power) :
    kind ≠ .eof := by
  rintro rfl
  exact Power.not_lt.mpr (Power.lowest_le power) h

end LetLang
