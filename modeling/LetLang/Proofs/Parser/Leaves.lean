import LetLang.Proofs.Parser.Keeps

/-!
# Texts of operands

**Input.** A text every token of which is an operand by itself: a name, a number or a truth value.

**Result.** `parse_leaves`: every token of the text that has a value is a statement, and every one
that has none is a diagnostic.  An operand is not continued by another one, so each is a statement,
and one that fails does not take the next one with it.
-/

namespace LetLang

namespace Token

/-- The expression that a token is by itself, or what is wrong with it; `none` for a token that is
no operand by itself. -/
def leaf? (token : Token) : Option (Except Cause Expr) :=
  match Handlers.standard.operand token.kind with
  | some .identifier => some (.ok (.identifier ⟨token, token.literal⟩))
  | some .integer =>
      match Integer.parse token.literal with
      | .ok value => some (.ok (.integer token value))
      | .error fault => some (.error (.badInteger token.literal fault))
  | some .float =>
      match Binary64.ofLiteral? token.literal with
      | some value => some (.ok (.float token value))
      | none => some (.error (.badFloat token.literal))
  | some .boolean => some (.ok (.boolean token (token.kind = .trueWord)))
  | _ => none

/-- The statement that a token is by itself. -/
def leafStatement? (token : Token) : Option Stmt :=
  match token.leaf? with
  | some (.ok value) => some (.expression token value)
  | _ => none

/-- The diagnostic of a token that is an operand without a value. -/
def leafDiagnostic? (token : Token) : Option Diagnostic :=
  match token.leaf? with
  | some (.error cause) => some ⟨cause, token.start⟩
  | _ => none

/-- A token that is an operand by itself has no handler for statements and is no operator, and it
ends neither a statement nor the input. -/
theorem apart_of_leaf {token : Token} (h : token.leaf?.isSome) :
    Handlers.standard.statement token.kind = none ∧ token.kind.power = .lowest ∧
      token.kind ≠ .semicolon ∧ token.kind ≠ .eof := by
  unfold leaf? at h
  cases kind : token.kind <;> rw [kind] at h <;> first
    | exact ⟨rfl, rfl, by decide, by decide⟩
    | cases h

end Token

/-- A parser has noted some events, and that is all. -/
structure Parser.Stays (begun ended : Parser) : Prop where
  stream : ended.stream = begun.stream
  keeps : begun.Keeps ended

namespace Parser.Stays

variable {parser ended : Parser}

theorem refl (parser : Parser) :
    parser.Stays parser :=
  ⟨rfl, .refl parser⟩

theorem next (h : parser.Stays ended) :
    ended.next = parser.next :=
  congrArg TokenStream.next h.stream

/-- What stays inside an expression stays where the expression has been begun. -/
theorem leave {event : Event}
    (h : { parser.note event with depth := parser.depth + 1 }.Stays ended) :
    parser.Stays ended.leave :=
  ⟨h.stream, h.keeps.stop, h.keeps.handlers, congrArg (· - 1) h.keeps.depth, h.keeps.diagnostics⟩

theorem ofNote {event : Event} (h : (parser.note event).Stays ended) :
    parser.Stays ended :=
  ⟨h.stream, h.keeps.stop, h.keeps.handlers, h.keeps.depth, h.keeps.diagnostics⟩

end Parser.Stays

/-- A parser has stayed at its token and recorded what is wrong with it, if anything is. -/
structure Parser.Judges (begun ended : Parser) : Prop where
  stream : ended.stream = begun.stream
  handlers : ended.handlers = begun.handlers
  depth : ended.depth = begun.depth
  diagnostics : ended.diagnostics.toList =
    begun.diagnostics.toList ++ begun.current.leafDiagnostic?.toList

/-- A step that stays at its token ends in a value, or in a diagnostic at this token. -/
def Outcome.ComesTo {α : Type} (outcome : Outcome α) (result : Except Cause α) (begun : Parser) :
    Prop :=
  outcome.Meets
    (fun value ended => result = .ok value ∧ begun.Stays ended)
    (fun diagnostic ended => result = .error diagnostic.cause ∧
      diagnostic.position = begun.current.start ∧ begun.Stays ended)

namespace Grammar

open Step

section Leaf

variable {parser : Parser} {result : Except Cause Expr}

/-- The operand that a token is by itself. -/
theorem operand_leaf (leaf : parser.current.leaf? = some result) :
    ∃ handler, Handlers.standard.operand parser.current.kind = some handler ∧
      ∀ fuel, (operand fuel handler parser).ComesTo result parser := by
  have stays := Parser.Stays.refl parser
  unfold Token.leaf? at leaf
  split at leaf
  case h_1 | h_4 =>
    rename_i entry
    cases leaf
    refine ⟨_, entry, fun fuel => ?_⟩
    cases fuel with
    | zero => trivial
    | succ fuel => exact ⟨rfl, stays⟩
  case h_2 | h_3 =>
    rename_i entry
    refine ⟨_, entry, fun fuel => ?_⟩
    cases fuel with
    | zero => trivial
    | succ fuel =>
        simp only [operand, current_bind]
        split at leaf <;> rename_i read <;> cases leaf <;> rw [read]
        · exact ⟨rfl, stays⟩
        · exact ⟨rfl, rfl, stays⟩
  case h_5 =>
    cases leaf

/-- No operation is read before a token that binds nothing. -/
theorem operations_weak (fuel : Nat) (left : Expr) (weak : parser.next.kind.power = .lowest) :
    (operations fuel .lowest left parser).Meets
      (fun whole ended => whole = left ∧ ended = parser) (fun _ _ => False) := by
  cases fuel with
  | zero =>
      trivial
  | succ fuel =>
      have notLess : ¬ Power.lowest < parser.next.kind.power := by
        rw [weak]
        decide
      simp only [operations, read_bind, notLess, if_false]
      exact ⟨rfl, rfl⟩

/-- An operand before another one is the whole expression. -/
theorem expression_leaf (fuel : Nat) (standard : parser.handlers = .standard)
    (room : parser.depth < Parser.nestingLimit) (leaf : parser.current.leaf? = some result)
    (weak : parser.next.kind.power = .lowest) :
    (expression fuel .lowest parser).ComesTo result parser := by
  cases fuel with
  | zero =>
      trivial
  | succ fuel =>
      simp only [expression, current_bind, modify_bind]
      refine meets_nested (fun _ => ?_) (fun full => ?_)
      · let inner : Parser :=
          { parser.note (.expressionBegun parser.current) with depth := parser.depth + 1 }
        obtain ⟨handler, entry, read⟩ := @operand_leaf inner result leaf
        have known : inner.handlers.operand parser.current.kind = some handler := by
          rw [← entry, ← standard]
          rfl
        show ((Step.read Parser.handlers >>= _) inner).Meets _ _
        rw [read_bind, known]
        refine meets_bind (read fuel) ?_ ?_
        · rintro value ended ⟨same, stays⟩
          refine (operations_weak fuel value ?_).mono ?_ ?_
          · rw [stays.next]
            exact weak
          · rintro _ _ ⟨rfl, rfl⟩
            exact ⟨same, stays.leave⟩
          · exact fun _ _ none => none.elim
        · rintro diagnostic ended ⟨same, position, stays⟩
          exact ⟨same, position, stays.leave⟩
      · exact absurd room (Nat.not_lt.mpr full)

/-- An operand before another one is a statement. -/
theorem statement_leaf (fuel : Nat) (standard : parser.handlers = .standard)
    (room : parser.depth < Parser.nestingLimit) (leaf : parser.current.leaf? = some result)
    (weak : parser.next.kind.power = .lowest) (noEnd : parser.next.kind ≠ .semicolon) :
    (statement fuel parser).ComesTo (result.map (.expression parser.current)) parser := by
  cases fuel with
  | zero =>
      trivial
  | succ fuel =>
      let noted := parser.note (.statementBegun parser.current)
      have some : parser.current.leaf?.isSome := leaf ▸ rfl
      have byExpression : (noted.handlers.statement parser.current.kind).getD .expression =
          .expression := by
        show (parser.handlers.statement parser.current.kind).getD .expression = .expression
        rw [standard, (Token.apart_of_leaf some).1]
        rfl
      simp only [statement, current_bind, modify_bind, read_bind]
      show (statementBy fuel ((noted.handlers.statement parser.current.kind).getD .expression)
        noted).ComesTo _ _
      rw [byExpression]
      cases fuel with
      | zero =>
          trivial
      | succ fuel =>
          simp only [statementBy, current_bind]
          refine meets_bind (@expression_leaf noted result fuel standard room leaf weak) ?_ ?_
          · rintro value ended ⟨same, stays⟩
            have bare : ended.next.kind ≠ .semicolon := by
              rw [stays.next]
              exact noEnd
            simp only [read_bind, bare, if_false]
            exact ⟨by rw [same]; rfl, stays.ofNote⟩
          · rintro diagnostic ended ⟨same, position, stays⟩
            exact ⟨by rw [same]; rfl, position, stays.ofNote⟩

/-- A statement that is an operand is kept, or what is wrong with the operand is recorded. -/
theorem recovering_leaf (fuel : Nat) (standard : parser.handlers = .standard)
    (room : parser.depth < Parser.nestingLimit) (leaf : parser.current.leaf? = some result)
    (weak : parser.next.kind.power = .lowest) (noEnd : parser.next.kind ≠ .semicolon) :
    (recovering (statement fuel) parser).Meets
      (fun read ended => read = parser.current.leafStatement? ∧ parser.Judges ended)
      (fun _ _ => False) := by
  refine meets_recovering ((statement_leaf fuel standard room leaf weak noEnd).mono ?_ ?_)
  · rintro value ended ⟨same, stays⟩
    cases result with
    | error cause =>
        cases same
    | ok e =>
        cases same
        refine ⟨?_, stays.stream, stays.keeps.handlers, stays.keeps.depth, ?_⟩
        · rw [Token.leafStatement?, leaf]
        · rw [Token.leafDiagnostic?, leaf, stays.keeps.diagnostics]
          exact (List.append_nil _).symm
  · rintro ⟨cause', position⟩ ended ⟨same, rfl, stays⟩
    cases result with
    | ok e =>
        cases same
    | error cause =>
        cases same
        refine ⟨?_, stays.stream, stays.keeps.handlers, stays.keeps.depth, ?_⟩
        · rw [Token.leafStatement?, leaf]
        · rw [Token.leafDiagnostic?, leaf, Parser.record, stays.keeps.diagnostics,
            Array.toList_push]
          rfl

end Leaf

section Run

variable {parser : Parser}

/-- Before operands and before the end of the input there is no operation, and no statement ends
with a semicolon. -/
theorem apart_next (leaves : ∀ token ∈ parser.behind, token.leaf?.isSome) :
    parser.next.kind.power = .lowest ∧ parser.next.kind ≠ .semicolon := by
  cases left : parser.behind with
  | nil =>
      rw [Parser.next_kind_of_behind_nil left]
      exact ⟨rfl, by decide⟩
  | cons token rest =>
      rw [Parser.next_of_behind left]
      obtain ⟨_, weak, noEnd, _⟩ := Token.apart_of_leaf (leaves token (left ▸ List.mem_cons_self))
      exact ⟨weak, noEnd⟩

/-- Operands up to the end of the input are a statement or a diagnostic each. -/
theorem statements_leaves (fuel : Nat) (found : List Stmt) (standard : parser.handlers = .standard)
    (top : parser.depth = 0) (leaves : ∀ token ∈ parser.stream.tokens, token.leaf?.isSome) :
    (statements fuel found parser).Meets
      (fun all ended =>
        all = found.reverse ++ parser.stream.tokens.filterMap Token.leafStatement? ∧
        ended.diagnostics.toList = parser.diagnostics.toList ++
          parser.stream.tokens.filterMap Token.leafDiagnostic?)
      (fun _ _ => False) := by
  generalize left : parser.stream.tokens = tokens at leaves ⊢
  induction tokens generalizing fuel found parser with
  | nil =>
      cases fuel with
      | zero =>
          trivial
      | succ fuel =>
          simp only [statements, current_bind, Parser.current_kind_of_tokens_nil left, if_true]
          exact ⟨(List.append_nil _).symm, (List.append_nil _).symm⟩
  | cons token rest ih =>
      cases fuel with
      | zero =>
          trivial
      | succ fuel =>
          have here := Parser.current_of_tokens left
          have isLeaf := leaves token List.mem_cons_self
          obtain ⟨result, leaf⟩ := Option.isSome_iff_exists.mp isLeaf
          have notEnd : parser.current.kind ≠ .eof := by
            rw [here]
            exact (Token.apart_of_leaf isLeaf).2.2.2
          have room : parser.depth < Parser.nestingLimit := by
            rw [top]
            decide
          have behind := Parser.behind_of_tokens left
          have leaves : ∀ token ∈ rest, token.leaf?.isSome :=
            fun token mem => leaves token (List.mem_cons_of_mem _ mem)
          obtain ⟨weak, noEnd⟩ := apart_next (behind ▸ leaves)
          simp only [statements, current_bind, notEnd, if_false]
          refine meets_bind (recovering_leaf fuel standard room (here ▸ leaf) weak noEnd) ?_
            (fun _ _ none => none)
          rintro read ended ⟨rfl, judges⟩
          have left' : ended.advance.stream.tokens = rest := by
            rw [Parser.tokens_advance, Parser.behind, judges.stream, left, List.tail_cons]
          simp only [advance_bind]
          refine (@ih ended.advance fuel _ (judges.handlers.trans standard)
            (judges.depth.trans top) left' leaves).mono ?_ (fun _ _ none => none)
          rintro all last ⟨rfl, recorded⟩
          have recorded : last.diagnostics.toList =
              ended.diagnostics.toList ++ rest.filterMap Token.leafDiagnostic? := recorded
          constructor
          · rw [here, List.reverse_append, List.append_assoc]
            cases statement : token.leafStatement? <;> simp [statement]
          · rw [recorded, judges.diagnostics, here, List.append_assoc]
            cases diagnostic : token.leafDiagnostic? <;> simp [diagnostic]

end Run

end Grammar

/-- A text of operands is a statement or a diagnostic for each of them. -/
theorem parse_leaves (source : String)
    (leaves : ∀ token ∈ Token.scan 0 source.toList, token.leaf?.isSome) :
    (parse source).program.statements =
        (Token.scan 0 source.toList).filterMap Token.leafStatement? ∧
      (parse source).diagnostics =
        (Token.scan 0 source.toList).filterMap Token.leafDiagnostic? := by
  have known (fuel : Nat) (event : Event) :
      (Grammar.statements fuel [] ((Parser.ofSource source).note event)).Meets
        (fun all ended => all = (Token.scan 0 source.toList).filterMap Token.leafStatement? ∧
          ended.diagnostics.toList =
            (Token.scan 0 source.toList).filterMap Token.leafDiagnostic?)
        (fun _ _ => False) :=
    @Grammar.statements_leaves ((Parser.ofSource source).note event) fuel [] rfl rfl leaves
  obtain ⟨ended, ⟨statements, diagnostics⟩, recorded⟩ := Parser.exists_ended_of_meets known
  exact ⟨statements, recorded.trans diagnostics⟩

end LetLang
