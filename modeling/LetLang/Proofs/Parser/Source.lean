import LetLang.Proofs.Concrete.First
import LetLang.Proofs.Parser.Limit

/-!
# Where a syntax tree comes from

A syntax tree that a step ends in is that of a concrete tree, all of whose tokens were in front of
the parser and whose nesting fits into the levels that were left.  If nothing has been recorded on
the way, more is true.  Then the concrete tree is well formed, and its tokens are those that the
parser has passed, each of them once and in order.

This module states these conditions for every notion of the grammar, and says how a step that is
made of others comes to meet them.
-/

namespace LetLang

namespace Step

variable {α β : Type} {step : Step α} {parser : Parser}
variable {done : α → Parser → Prop}

/-- Where a step is done it has gone onward, and a condition holds. -/
def Yields (step : Step α) (parser : Parser) (done : α → Parser → Prop) : Prop :=
  (step parser).Meets
    (fun value ended => parser.Extends ended ∧ done value ended)
    (fun _ _ => True)

theorem Onward.yields
    (onward : step.Onward) (h : (step parser).Meets done (fun _ _ => True)) :
    step.Yields parser done :=
  ((onward parser).and h).imp (fun _ _ both => both)

theorem Yields.meets (h : step.Yields parser done) :
    (step parser).Meets done (fun _ _ => True) :=
  h.imp (fun _ _ both => both.2)

theorem yields_bind
    {next : α → Step β} {done' : β → Parser → Prop}
    (first : step.Yields parser done)
    (rest : ∀ value ended, parser.Extends ended → done value ended →
      (next value ended).Meets done' (fun _ _ => True)) :
    ((step >>= next) parser).Meets done' (fun _ _ => True) :=
  meets_bind first
    (fun value ended both => rest value ended both.1 both.2) (fun _ _ _ => trivial)

/-- Behind a step whose diagnostic is recorded, either its value is known or the record is. -/
theorem yields_recovering_bind
    {next : Option α → Step β} {done' : β → Parser → Prop}
    (onward : step.Onward) (h : step.Yields parser done)
    (read : ∀ value ended, parser.Extends ended → done value ended →
      (next (some value) ended).Meets done' (fun _ _ => True))
    (unread : ∀ diagnostic ended, parser.Extends ended →
      (next none (ended.record diagnostic)).Meets done' (fun _ _ => True)) :
    ((recovering step >>= next) parser).Meets done' (fun _ _ => True) := by
  have recovered : (recovering step parser).Meets
      (fun result ended =>
        (∃ value, result = some value ∧ parser.Extends ended ∧ done value ended) ∨
        (∃ diagnostic before, result = none ∧ ended = before.record diagnostic ∧
          parser.Extends before))
      (fun _ _ => True) :=
    meets_recovering (((onward parser).and h).mono
      (fun value _ both => .inl ⟨value, rfl, both.2⟩)
      (fun diagnostic before both => .inr ⟨diagnostic, before, rfl, rfl, both.1⟩))
  refine meets_bind recovered ?_ (fun _ _ _ => trivial)
  rintro _ _ (⟨value, rfl, extension, holds⟩ | ⟨diagnostic, before, rfl, rfl, extension⟩)
  · exact read value _ extension holds
  · exact unread diagnostic before extension

/-- What follows `expect` is given the token that was passed. -/
theorem meets_expect_bind
    {kind : Kind} {next : Token → Step β} {done : β → Parser → Prop}
    (notEnd : kind ≠ .eof)
    (h : ∀ token : TokenOf [kind], parser.stream.tokens = token.token :: parser.behind →
      (next token.token parser.advance).Meets done (fun _ _ => True)) :
    ((expect kind >>= next) parser).Meets done (fun _ _ => True) := by
  by_cases same : parser.current.kind = kind
  · rw [expect_bind_of_kind same]
    exact h ⟨parser.current, List.mem_singleton.mpr same⟩
      (Parser.tokens_of_current (same ▸ notEnd))
  · rw [expect_bind_of_ne same]
    trivial

/-- What follows `expectNext` is given the token that was moved to. -/
theorem meets_expectNext_bind
    {kind : Kind} {next : Token → Step β} {done : β → Parser → Prop}
    (notEnd : kind ≠ .eof)
    (h : ∀ token : TokenOf [kind], parser.behind = token.token :: parser.advance.behind →
      (next token.token parser.advance).Meets done (fun _ _ => True)) :
    ((expectNext kind >>= next) parser).Meets done (fun _ _ => True) := by
  by_cases same : parser.next.kind = kind
  · rw [expectNext_bind_of_kind same]
    exact h ⟨parser.next, List.mem_singleton.mpr same⟩
      (Parser.behind_of_next (same ▸ notEnd))
  · rw [expectNext_bind_of_ne same]
    trivial

end Step

namespace Parser

/-- A parser of the language on a level that there is. -/
structure Ready (parser : Parser) : Prop where
  handlers : parser.handlers = .standard
  room : parser.Fits 0

variable {begun late parser : Parser}

theorem Ready.extends (h : begun.Ready) (extension : begun.Extends late) :
    late.Ready :=
  ⟨extension.handlers.trans h.handlers, by
    have := h.room
    rwa [Fits, extension.depth]⟩

theorem Ready.advance (h : parser.Ready) :
    parser.advance.Ready :=
  h.extends (Extends.advance parser)

theorem mem_of_tokens
    {token : Token} {rest : List Token}
    (h : parser.stream.tokens = token :: rest) :
    token ∈ parser.stream.tokens := by
  rw [h]
  exact List.mem_cons_self

theorem mem_of_behind
    {token : Token} {rest : List Token}
    (h : parser.behind = token :: rest) :
    token ∈ parser.stream.tokens :=
  (Extends.advance parser).mem_tokens (mem_of_tokens h)

/-- Some tokens are in front of a parser, and a number of levels is left. -/
structure Covers (parser : Parser) (tokens : List Token) (levels : Nat) : Prop where
  tokens : ∀ token ∈ tokens, token ∈ parser.stream.tokens
  fits : parser.Fits levels

namespace Covers

variable {tokens tokens' : List Token} {levels levels' : Nat}

theorem of_extends
    (h : late.Covers tokens levels) (extension : begun.Extends late) :
    begun.Covers tokens levels :=
  ⟨fun token mem => extension.mem_tokens (h.tokens token mem), by
    have := h.fits
    rwa [Fits, extension.depth] at this⟩

theorem cons {token : Token}
    (mem : token ∈ parser.stream.tokens) (h : parser.Covers tokens levels) :
    parser.Covers (token :: tokens) levels :=
  ⟨List.forall_mem_cons.mpr ⟨mem, h.tokens⟩, h.fits⟩

theorem append
    (h : parser.Covers tokens levels) (h' : parser.Covers tokens' levels') :
    parser.Covers (tokens ++ tokens') (max levels levels') :=
  ⟨List.forall_mem_append.mpr ⟨h.tokens, h'.tokens⟩, by
    have := h.fits
    have := h'.fits
    unfold Fits at *
    omega⟩

theorem concat {token : Token}
    (h : parser.Covers tokens levels) (mem : token ∈ parser.stream.tokens) :
    parser.Covers (tokens ++ [token]) levels :=
  ⟨List.forall_mem_append.mpr ⟨h.tokens, by simpa using mem⟩, h.fits⟩

theorem nil (h : parser.Ready) :
    parser.Covers [] 0 :=
  ⟨by simp, h.room⟩

end Covers

end Parser

namespace Concrete

section Conditions

variable (begun ended : Parser)

/-- The tokens between two parsers are those of an expression that was asked for with a power. -/
structure Expr.Fills (e : Expr) (power : Power) : Prop where
  wellFormed : e.WellFormed
  binds : e.IsBinary → power < e.level
  tokens : begun.stream.tokens = e.tokens ++ ended.behind

/-- A syntax tree is that of an expression which was read with a power.  A number of the levels
that it needs had been entered before. -/
def Expr.IsSource (power : Power) (entered : Nat) (value : LetLang.Expr) : Prop :=
  ∃ e : Expr, e.erase = value ∧ e.first = begun.current ∧
    begun.Covers e.tokens (e.nesting - entered) ∧
      (ended.diagnostics = begun.diagnostics →
        e.Fills begun ended power ∧ ¬ power < ended.next.kind.power)

/-- An expression has been read that the loop over operators may take for a left operand. -/
structure Expr.LeadsFrom (e : Expr) (power : Power) : Prop where
  first : e.first = begun.current
  covers : begun.Covers e.tokens (e.nesting - 1)
  clean : ended.diagnostics = begun.diagnostics →
    e.Fills begun ended power ∧ ended.next.kind.power ≤ e.level

/-- A syntax tree is that of an operand.  The level on which it was read had been entered. -/
def Expr.IsOperandSource (value : LetLang.Expr) : Prop :=
  ∃ e : Expr, e.erase = value ∧ e.first = begun.current ∧ ¬ e.IsBinary ∧
    begun.Covers e.tokens (e.nesting - 1) ∧
      (ended.diagnostics = begun.diagnostics →
        e.WellFormed ∧ begun.stream.tokens = e.tokens ++ ended.behind)

/-- A syntax tree is that of an operation on a left operand that has been read. -/
def Expr.IsOperationSource (left value : LetLang.Expr) : Prop :=
  ∃ right : Expr,
    value = .binary begun.current begun.current.literal left right.erase ∧
      begun.Covers (begun.current :: right.tokens) right.nesting ∧
        (ended.diagnostics = begun.diagnostics →
          right.WellFormed ∧ begun.current.kind.power < right.level ∧
            begun.stream.tokens = begun.current :: (right.tokens ++ ended.behind) ∧
              ended.next.kind.power ≤ begun.current.kind.power)

/-- A syntax tree is that of a block. -/
def Block.IsSource (value : LetLang.Block) : Prop :=
  ∃ b : Block, b.erase = value ∧ begun.Covers b.tokens b.nesting ∧
    (ended.diagnostics = begun.diagnostics →
      b.WellFormed ∧ begun.stream.tokens = b.tokens ++ ended.behind)

/-- A syntax tree is that of a statement. -/
def Stmt.IsSource (value : LetLang.Stmt) : Prop :=
  ∃ s : Stmt, s.erase = value ∧ begun.Covers s.tokens s.nesting ∧
    (ended.diagnostics = begun.diagnostics →
      s.WellFormed ∧ begun.stream.tokens = s.tokens ++ ended.behind ∧
        (s.IsOpen → ¬ .lowest < ended.next.kind.power))

/-- Syntax trees are those of some statements, behind those that were found before. -/
def Stmt.AreSource (found values : List LetLang.Stmt) : Prop :=
  ∃ all : List Stmt, found.reverse ++ Stmt.eraseAll all = values ∧
    begun.Covers (Stmt.tokensOf all) (Stmt.nestingOf all) ∧
      (ended.diagnostics = begun.diagnostics →
        Stmt.AllWellFormed all ∧
          begun.stream.tokens = Stmt.tokensOf all ++ ended.stream.tokens)

end Conditions

end Concrete
end LetLang
