import LetLang.Proofs.Concrete.First
import LetLang.Proofs.Parser.Ahead
import LetLang.Proofs.Token.Window

/-!
# Every statement has a token of its own

**Input.** A source text.

**Result.** `parse_begins_once`: no token is the first of two statements or of two expressions,
for these are begun in the order of the text.  Since every statement that is begun leads to one
statement of the tree or to one diagnostic at most, the statements of the tree and the diagnostics
together are not more than the tokens.

**Invariant.** The tokens at which something has been begun, with those at which it may still be
begun, are tokens of the text in their order.  Whether the current token is among the latter depends
on the state: `Fresh` if a statement may be begun there, `Opened` if an expression may, and
`Settled` if neither may.  Every step ends settled, and becomes fresh again behind the next token.
The statements read so far, those that are being read and the diagnostics are counted along with it.
-/

namespace LetLang

section Count

mutual

/-- The number of statements inside an expression. -/
def Expr.countInside : Expr → Nat
  | .identifier _ => 0
  | .integer _ _ => 0
  | .float _ _ => 0
  | .boolean _ _ => 0
  | .unary _ _ right => right.countInside
  | .binary _ _ left right => left.countInside + right.countInside
  | .conditional _ condition consequence none => condition.countInside + consequence.countInside
  | .conditional _ condition consequence (some alternative) =>
      condition.countInside + consequence.countInside + alternative.countInside

/-- The number of statements inside a block. -/
def Block.countInside : Block → Nat
  | .mk _ _ statements => Stmt.countAll statements

/-- The number of statements inside a statement, which is not counted itself. -/
def Stmt.countInside : Stmt → Nat
  | .binding _ _ value => value.countInside
  | .returning _ none => 0
  | .returning _ (some value) => value.countInside
  | .expression _ value => value.countInside
  | .block inner => inner.countInside

/-- The number of some statements and of those inside them. -/
def Stmt.countAll : List Stmt → Nat
  | [] => 0
  | first :: rest => first.countInside + 1 + Stmt.countAll rest

end

theorem Stmt.countAll_append (front back : List Stmt) :
    countAll (front ++ back) = countAll front + countAll back := by
  induction front with
  | nil =>
      simp [countAll]
  | cons first rest ih =>
      simp only [List.cons_append, countAll, ih]
      omega

theorem Stmt.countAll_reverse (all : List Stmt) :
    countAll all.reverse = countAll all := by
  induction all with
  | nil =>
      rfl
  | cons first rest ih =>
      simp only [List.reverse_cons, countAll_append, countAll, ih]
      omega

end Count

namespace Event

/-- The first token of a statement that is begun. -/
def statement? : Event → Option Token
  | statementBegun token => some token
  | _ => none

/-- The first token of an expression that is begun. -/
def expression? : Event → Option Token
  | expressionBegun token => some token
  | _ => none

end Event

namespace Parser

/-- The tokens at which a statement has been begun, in the order in which this was done. -/
def statementsBegun (parser : Parser) : List Token :=
  parser.trace.toList.filterMap Event.statement?

/-- The tokens at which an expression has been begun, in the order in which this was done. -/
def expressionsBegun (parser : Parser) : List Token :=
  parser.trace.toList.filterMap Event.expression?

section Begun

variable (parser : Parser) (event : Event)

theorem statementsBegun_note :
    (parser.note event).statementsBegun = parser.statementsBegun ++ event.statement?.toList := by
  cases event <;> simp [statementsBegun, note, Event.statement?]

theorem expressionsBegun_note :
    (parser.note event).expressionsBegun = parser.expressionsBegun ++ event.expression?.toList := by
  cases event <;> simp [expressionsBegun, note, Event.expression?]

theorem statementsBegun_record (diagnostic : Diagnostic) :
    (parser.record diagnostic).statementsBegun = parser.statementsBegun := by
  simp [statementsBegun, record, Event.statement?]

theorem expressionsBegun_record (diagnostic : Diagnostic) :
    (parser.record diagnostic).expressionsBegun = parser.expressionsBegun := by
  simp [expressionsBegun, record, Event.expression?]

end Begun

/-- The account of a parser of a text: statements may still be begun at some tokens and expressions
at some, and a number of statements are held, which have been read or are being read. -/
structure Account (parser : Parser) (source : String) (statements expressions : List Token)
    (held : Nat) : Prop where
  regular : parser.Regular
  statements : (parser.statementsBegun ++ statements).Sublist (Token.scan 0 source.toList)
  expressions : (parser.expressionsBegun ++ expressions).Sublist (tokenize source)
  paid : held + parser.diagnostics.size ≤ parser.statementsBegun.length

/-- A statement may be begun at the current token. -/
def Fresh (parser : Parser) (source : String) (held : Nat) : Prop :=
  parser.Account source parser.stream.tokens parser.ahead held

/-- An expression may be begun at the current token, but no statement. -/
def Opened (parser : Parser) (source : String) (held : Nat) : Prop :=
  parser.Account source parser.behind parser.ahead held

/-- Nothing may be begun at the current token. -/
def Settled (parser : Parser) (source : String) (held : Nat) : Prop :=
  parser.Account source parser.behind parser.ahead.tail held

section Account

variable {parser : Parser} {source : String} {held fewer : Nat}

theorem Fresh.opened (h : parser.Fresh source held) :
    parser.Opened source held :=
  ⟨h.regular, ((List.tail_sublist _).append_left _).trans h.statements, h.expressions, h.paid⟩

theorem Opened.settled (h : parser.Opened source held) :
    parser.Settled source held :=
  ⟨h.regular, h.statements, ((List.tail_sublist _).append_left _).trans h.expressions, h.paid⟩

theorem Settled.mono (h : parser.Settled source held) (le : fewer ≤ held) :
    parser.Settled source fewer :=
  ⟨h.regular, h.statements, h.expressions, Nat.le_trans (Nat.add_le_add_right le _) h.paid⟩

/-- Behind a token that is passed all is fresh. -/
theorem Settled.advance (h : parser.Settled source held) (notEnd : parser.current.kind ≠ .eof) :
    parser.advance.Fresh source held :=
  ⟨h.regular.advance, h.statements, ahead_advance notEnd ▸ h.expressions, h.paid⟩

/-- The current token is not the end of the input if the next one is not. -/
theorem Settled.current_ne_eof
    (h : parser.Settled source held) (notEnd : parser.next.kind ≠ .eof) :
    parser.current.kind ≠ .eof := by
  intro atEnd
  rw [next_of_nil (h.regular.tokens_eq_nil atEnd)] at notEnd
  exact notEnd atEnd

/-- A statement that is begun is held from then on. -/
theorem Fresh.begin (h : parser.Fresh source held) (notEnd : parser.current.kind ≠ .eof) :
    (parser.note (.statementBegun parser.current)).Opened source (held + 1) := by
  obtain ⟨regular, statements, expressions, paid⟩ := h
  constructor
  · exact regular.keep rfl rfl
  · rw [statementsBegun_note, List.append_assoc]
    rw [tokens_of_current notEnd] at statements
    exact statements
  · rw [expressionsBegun_note]
    exact (List.append_nil _).symm ▸ expressions
  · rw [statementsBegun_note, List.length_append]
    exact (Nat.add_right_comm held 1 _).symm ▸ Nat.succ_le_succ paid

theorem Opened.begin (h : parser.Opened source held) :
    (parser.note (.expressionBegun parser.current)).Settled source held := by
  obtain ⟨regular, statements, expressions, paid⟩ := h
  constructor
  · exact regular.keep rfl rfl
  · rw [statementsBegun_note]
    exact (List.append_nil _).symm ▸ statements
  · rw [expressionsBegun_note, List.append_assoc]
    rw [ahead_eq_cons] at expressions
    exact expressions
  · rw [statementsBegun_note]
    exact (List.append_nil _).symm ▸ paid

/-- A diagnostic takes the place of the statement that it is about. -/
theorem Settled.record (h : parser.Settled source (held + 1)) (diagnostic : Diagnostic) :
    (parser.record diagnostic).Settled source held := by
  obtain ⟨regular, statements, expressions, paid⟩ := h
  constructor
  · exact regular.keep rfl rfl
  · rw [statementsBegun_record]
    exact statements
  · rw [expressionsBegun_record]
    exact expressions
  · rw [statementsBegun_record]
    simp only [Parser.record, Array.size_push]
    omega

/-- The account is the same on every level. -/
theorem Settled.atDepth (h : parser.Settled source held) (depth : Nat) :
    Settled { parser with depth } source held :=
  ⟨h.regular.keep rfl rfl, h.statements, h.expressions, h.paid⟩

end Account

end Parser

namespace Step

variable {α β : Type} {parser : Parser} {source : String} {held more : Nat}
variable {count : α → Nat} {count' : β → Nat}

/-- However a step ends, the account is settled.  The statements inside its value are held too. -/
def Settles (step : Step α) (source : String) (count : α → Nat) (held : Nat) (parser : Parser) :
    Prop :=
  (step parser).Meets
    (fun value ended => ended.Settled source (held + count value))
    (fun _ ended => ended.Settled source held)

theorem settles_pure {value : α} (settled : parser.Settled source (held + count value)) :
    (pure value : Step α).Settles source count held parser :=
  settled

theorem settles_fail {cause : Cause} {position : Nat} (settled : parser.Settled source held) :
    (fail cause position : Step α).Settles source count held parser :=
  settled

/-- What a step holds may be given up by what follows it. -/
theorem settles_bind
    {step : Step α} {next : α → Step β}
    (first : step.Settles source count more parser) (le : held ≤ more)
    (rest : ∀ value (ended : Parser), ended.Settled source (more + count value) →
      (next value).Settles source count' held ended) :
    (step >>= next).Settles source count' held parser :=
  meets_bind first rest (fun _ _ settled => settled.mono le)

theorem settles_advance
    {next : Unit → Step β} (rest : (next ()).Settles source count' held parser.advance) :
    (advance >>= next).Settles source count' held parser :=
  rest

theorem settles_take
    {next : Token → Step β}
    (rest : (next parser.current).Settles source count' held parser.advance) :
    (take >>= next).Settles source count' held parser :=
  rest

theorem settles_expect_bind
    {kind : Kind} {next : Token → Step β}
    (settled : parser.Settled source held) (notEnd : kind ≠ .eof)
    (rest : parser.advance.Fresh source held →
      (next parser.current).Settles source count' held parser.advance) :
    (expect kind >>= next).Settles source count' held parser := by
  unfold Settles
  by_cases same : parser.current.kind = kind
  · rw [expect_bind_of_kind same]
    exact rest (settled.advance (same ▸ notEnd))
  · rw [expect_bind_of_ne same]
    exact settled

theorem settles_expectNext_bind
    {kind : Kind} {next : Token → Step β}
    (settled : parser.Settled source more) (notEnd : kind ≠ .eof) (le : held ≤ more)
    (rest : parser.advance.Fresh source more → parser.advance.current.kind = kind →
      (next parser.next).Settles source count' held parser.advance) :
    (expectNext kind >>= next).Settles source count' held parser := by
  unfold Settles
  by_cases same : parser.next.kind = kind
  · rw [expectNext_bind_of_kind same]
    exact rest (settled.advance (settled.current_ne_eof (same ▸ notEnd))) same
  · rw [expectNext_bind_of_ne same]
    exact settled.mono le

theorem settles_nested
    {step : Step α} (settled : parser.Settled source held)
    (inside : ∀ inner : Parser, inner.Settled source held → inner.current = parser.current →
      step.Settles source count held inner) :
    (nested step).Settles source count held parser :=
  meets_nested
    (fun _ => (inside _ (settled.atDepth (parser.depth + 1)) rfl).mono
      (fun _ ended settled => settled.atDepth (ended.depth - 1))
      (fun _ ended settled => settled.atDepth (ended.depth - 1)))
    (fun _ => settled)

/-- Of a statement that is begun there is a value or a diagnostic. -/
theorem settles_recovering {step : Step α} (h : step.Settles source count (held + 1) parser) :
    (recovering step).Settles source (fun read => (read.map fun value => 1 + count value).getD 0)
      held parser := by
  refine meets_recovering (h.mono ?_ ?_)
  · intro value ended settled
    exact settled.mono (Nat.le_of_eq (Nat.add_assoc _ _ _).symm)
  · intro diagnostic ended settled
    exact settled.record diagnostic

end Step

namespace Grammar

open Step Concrete

/-- How the steps of the grammar with a number of units of fuel settle their accounts. -/
structure Settles (source : String) (fuel : Nat) : Prop where
  expression : ∀ power {held} {parser : Parser}, parser.Opened source held →
    (expression fuel power).Settles source Expr.countInside held parser
  operations : ∀ power left {held} {parser : Parser},
    parser.Settled source (held + left.countInside) →
    (operations fuel power left).Settles source Expr.countInside held parser
  operation : ∀ handler left power {held} {parser : Parser},
    parser.Settled source (held + left.countInside) → parser.current.kind ≠ .eof →
    (operation fuel handler left power).Settles source Expr.countInside held parser
  operand : ∀ handler {held} {parser : Parser}, parser.Settled source held →
    Handlers.standard.operand parser.current.kind = some handler →
    (operand fuel handler).Settles source Expr.countInside held parser
  block : ∀ {held} {parser : Parser}, parser.Settled source held → parser.current.kind ≠ .eof →
    (block fuel).Settles source Block.countInside held parser
  blockStatements : ∀ found {held} {parser : Parser},
    parser.Fresh source (held + Stmt.countAll found) →
    (blockStatements fuel found).Settles source Stmt.countAll held parser
  statement : ∀ {held} {parser : Parser}, parser.Fresh source held → parser.current.kind ≠ .eof →
    (statement fuel).Settles source Stmt.countInside (held + 1) parser
  statementBy : ∀ handler {held} {parser : Parser}, parser.Opened source held →
    handler ≠ .block →
    (statementBy fuel handler).Settles source Stmt.countInside held parser

section Units

variable {source : String} {fuel held : Nat} {parser : Parser}

theorem expression_settles (h : Settles source fuel) (power : Power)
    (opened : parser.Opened source held) :
    (expression (fuel + 1) power).Settles source Expr.countInside held parser := by
  simp only [expression, Step.Settles, current_bind, modify_bind]
  refine settles_nested opened.begin ?_
  intro inner settled same
  have same : parser.current = inner.current := same.symm
  have standard := settled.regular.handlers
  simp only [Step.Settles, read_bind, standard, same]
  cases known : Handlers.standard.operand inner.current.kind with
  | none =>
      exact settles_fail settled
  | some handler =>
      exact settles_bind (h.operand handler settled known) (Nat.le_refl _)
        (fun left _ settled => h.operations power left settled)

theorem operations_settles (h : Settles source fuel) (power : Power) (left : Expr)
    (settled : parser.Settled source (held + left.countInside)) :
    (operations (fuel + 1) power left).Settles source Expr.countInside held parser := by
  simp only [operations, Step.Settles, read_bind]
  by_cases binds : power < parser.next.kind.power
  · have notEnd := ne_eof_of_mem (mem_binaryOperators binds)
    simp only [binds, if_true, read_bind]
    cases parser.handlers.operator parser.next.kind with
    | none =>
        exact settles_pure settled
    | some handler =>
        have fresh := settled.advance (settled.current_ne_eof notEnd)
        refine settles_advance ?_
        exact settles_bind (h.operation handler left _ fresh.opened.settled notEnd) (Nat.le_refl _)
          (fun whole _ settled => h.operations power whole settled)
  · simp only [binds, if_false]
    exact settles_pure settled

theorem operation_settles (h : Settles source fuel) (handler : OperatorHandler) (left : Expr)
    (power : Power) (settled : parser.Settled source (held + left.countInside))
    (notEnd : parser.current.kind ≠ .eof) :
    (operation (fuel + 1) handler left power).Settles source Expr.countInside held parser := by
  have opened := (settled.advance notEnd).opened
  have whole (right : Expr) (ended : Parser)
      (settled : ended.Settled source (held + left.countInside + right.countInside)) :
      (pure (.binary parser.current parser.current.literal left right) : Step Expr).Settles source
        Expr.countInside held ended :=
    settles_pure (by rwa [Expr.countInside, ← Nat.add_assoc])
  refine settles_take ?_
  cases handler with
  | binary =>
      exact settles_bind (h.expression power opened) (Nat.le_add_right _ _) whole
  | binaryLowest =>
      exact settles_bind (h.expression .lowest opened) (Nat.le_add_right _ _) whole

theorem alternative_settles (h : Settles source fuel) (token : Token) (condition : Expr)
    (consequence : Block)
    (settled : parser.Settled source (held + (condition.countInside + consequence.countInside))) :
    (alternative (block fuel) (.conditional token condition consequence)).Settles source
      Expr.countInside held parser := by
  simp only [alternative, Step.Settles, read_bind]
  by_cases isElse : parser.next.kind = .elseWord
  · simp only [isElse, if_true]
    have fresh := settled.advance (settled.current_ne_eof (isElse ▸ by decide))
    refine settles_expectNext_bind fresh.opened.settled (by decide) (Nat.le_add_right _ _) ?_
    intro fresh isBrace
    refine settles_bind (h.block fresh.opened.settled (isBrace ▸ by decide))
      (Nat.le_add_right _ _) ?_
    intro second ended settled
    exact settles_pure (by rwa [Expr.countInside, ← Nat.add_assoc])
  · simp only [isElse, if_false]
    exact settles_pure (by rwa [Expr.countInside])

theorem branches_settles (h : Settles source fuel) (token : Token) (condition : Expr)
    (settled : parser.Settled source (held + condition.countInside)) :
    (branches (block fuel) token condition).Settles source Expr.countInside held parser := by
  refine settles_expectNext_bind settled (by decide) (Nat.le_add_right _ _) ?_
  intro fresh _
  refine settles_expectNext_bind fresh.opened.settled (by decide) (Nat.le_add_right _ _) ?_
  intro fresh isBrace
  refine settles_bind (h.block fresh.opened.settled (isBrace ▸ by decide)) (Nat.le_add_right _ _) ?_
  intro consequence ended settled
  exact alternative_settles h token condition consequence (by rwa [← Nat.add_assoc])

theorem operand_settles (h : Settles source fuel) (handler : OperandHandler)
    (settled : parser.Settled source held)
    (known : Handlers.standard.operand parser.current.kind = some handler) :
    (operand (fuel + 1) handler).Settles source Expr.countInside held parser := by
  have notEnd : parser.current.kind ≠ .eof := by
    intro atEnd
    rw [atEnd] at known
    cases known
  cases handler with
  | identifier | boolean =>
      exact settled
  | integer =>
      simp only [operand, Step.Settles, current_bind]
      cases Integer.parse parser.current.literal with
      | ok value =>
          exact settles_pure settled
      | error fault =>
          exact settles_fail settled
  | float =>
      simp only [operand, Step.Settles, current_bind]
      cases Binary64.ofLiteral? parser.current.literal with
      | some value =>
          exact settles_pure settled
      | none =>
          exact settles_fail settled
  | unary =>
      refine settles_take ?_
      refine settles_bind (h.expression .unary (settled.advance notEnd).opened) (Nat.le_refl _) ?_
      intro right ended settled
      exact settles_pure (by rwa [Expr.countInside])
  | group =>
      refine settles_advance ?_
      refine settles_bind (h.expression .lowest (settled.advance notEnd).opened) (Nat.le_refl _) ?_
      intro inner ended settled
      exact settles_expectNext_bind settled (by decide) (Nat.le_add_right _ _)
        (fun fresh _ => fresh.opened.settled)
  | conditional =>
      simp only [operand, Step.Settles, current_bind]
      refine settles_expectNext_bind settled (by decide) (Nat.le_refl _) ?_
      intro fresh isParen
      have fresh := fresh.opened.settled.advance (isParen ▸ by decide)
      refine settles_advance ?_
      exact settles_bind (h.expression .lowest fresh.opened) (Nat.le_refl _)
        (fun condition _ settled => branches_settles h _ condition settled)

theorem block_settles (h : Settles source fuel) (settled : parser.Settled source held)
    (notEnd : parser.current.kind ≠ .eof) :
    (block (fuel + 1)).Settles source Block.countInside held parser := by
  have fresh := settled.advance notEnd
  refine settles_take ?_
  refine settles_bind (h.blockStatements [] fresh) (Nat.le_refl _) ?_
  intro statements ended settled
  simp only [Step.Settles, current_bind]
  by_cases atEnd : ended.current.kind = .eof
  · simp only [atEnd, if_true]
    exact settled.mono (Nat.le_add_right _ _)
  · simp only [atEnd, if_false]
    exact settles_pure (by rwa [Block.countInside])

/-- Where the statements of a block end, the account stays settled. -/
theorem blockStatements_settles_of_last {found : List Stmt}
    (settled : parser.Settled source (held + Stmt.countAll found))
    (last : parser.current.kind = .closeBrace ∨ parser.current.kind = .eof) :
    (blockStatements fuel found).Settles source Stmt.countAll held parser := by
  refine (blockStatements_of_last fuel found last).mono ?_ (fun _ _ none => none.elim)
  rintro all ended ⟨rfl, rfl⟩
  rwa [Stmt.countAll_reverse]

/-- Behind a token that is passed the statements of a block go on, unless it was the last. -/
theorem blockStatements_settles_advance (h : Settles source fuel) {found : List Stmt}
    (settled : parser.Settled source (held + Stmt.countAll found)) :
    (blockStatements fuel found).Settles source Stmt.countAll held parser.advance := by
  by_cases atEnd : parser.current.kind = .eof
  · rw [Parser.advance_of_nil (settled.regular.tokens_eq_nil atEnd)]
    exact blockStatements_settles_of_last settled (.inr atEnd)
  · exact h.blockStatements found (settled.advance atEnd)

theorem blockStatements_settles (h : Settles source fuel) (found : List Stmt)
    (fresh : parser.Fresh source (held + Stmt.countAll found)) :
    (blockStatements (fuel + 1) found).Settles source Stmt.countAll held parser := by
  by_cases last : parser.current.kind = .closeBrace ∨ parser.current.kind = .eof
  · exact blockStatements_settles_of_last fresh.opened.settled last
  · simp only [blockStatements, Step.Settles, current_bind, last, if_false]
    refine settles_bind (settles_recovering (h.statement fresh (fun atEnd => last (.inr atEnd))))
      (Nat.le_add_right _ _) ?_
    intro read ended settled
    cases read with
    | some statement =>
        refine blockStatements_settles_advance h (settled.mono ?_)
        simp only [Stmt.countAll, Option.map_some, Option.getD_some]
        omega
    | none =>
        simp only [Step.Settles, current_bind]
        by_cases closed : ended.current.kind = .closeBrace
        · simp only [closed, if_true]
          exact blockStatements_settles_of_last settled (.inl closed)
        · simp only [closed, if_false]
          exact blockStatements_settles_advance h settled

theorem statement_settles (h : Settles source fuel) (fresh : parser.Fresh source held)
    (notEnd : parser.current.kind ≠ .eof) :
    (statement (fuel + 1)).Settles source Stmt.countInside (held + 1) parser := by
  have standard := fresh.regular.handlers
  simp only [statement, Step.Settles, current_bind, modify_bind, read_bind, Parser.handlers_note,
    standard]
  exact h.statementBy _ (fresh.begin notEnd) (statement_ne_block _)

/-- Behind the value of a statement its semicolon is expected. -/
theorem terminated_settles (h : Settles source fuel) (result : Expr → Stmt)
    (same : ∀ value, (result value).countInside = value.countInside)
    (opened : parser.Opened source held) :
    (do
      let value ← expression fuel .lowest
      let _ ← Step.expectNext .semicolon
      pure (result value) : Step Stmt).Settles source Stmt.countInside held parser := by
  refine settles_bind (h.expression .lowest opened) (Nat.le_refl _) ?_
  intro value ended settled
  refine settles_expectNext_bind settled (by decide) (Nat.le_add_right _ _) ?_
  intro fresh _
  exact settles_pure (by rw [same]; exact fresh.opened.settled)

theorem statementBy_settles (h : Settles source fuel) (handler : StatementHandler)
    (opened : parser.Opened source held) (notBlock : handler ≠ .block) :
    (statementBy (fuel + 1) handler).Settles source Stmt.countInside held parser := by
  cases handler with
  | binding =>
      refine settles_expect_bind opened.settled (by decide) (fun fresh => ?_)
      refine settles_expect_bind fresh.opened.settled (by decide) (fun fresh => ?_)
      refine settles_expect_bind fresh.opened.settled (by decide) (fun fresh => ?_)
      exact terminated_settles h _ (fun _ => by rw [Stmt.countInside]) fresh.opened
  | returning =>
      refine settles_expect_bind opened.settled (by decide) (fun fresh => ?_)
      simp only [Step.Settles, current_bind]
      split
      · exact fresh.opened.settled
      · exact terminated_settles h _ (fun _ => by rw [Stmt.countInside]) fresh.opened
  | expression =>
      simp only [statementBy, Step.Settles, current_bind]
      refine settles_bind (h.expression .lowest opened) (Nat.le_refl _) ?_
      intro value ended settled
      simp only [Step.Settles, read_bind]
      by_cases terminated : ended.next.kind = .semicolon
      · simp only [terminated, if_true]
        have fresh := settled.advance (settled.current_ne_eof (terminated ▸ by decide))
        exact settles_pure (by rw [Stmt.countInside]; exact fresh.opened.settled)
      · simp only [terminated, if_false]
        exact settles_pure (by rwa [Stmt.countInside])
  | block =>
      exact absurd rfl notBlock

end Units

theorem settles_of_fuel (source : String) (fuel : Nat) :
    Settles source fuel := by
  induction fuel with
  | zero =>
      exact
        { expression := fun _ _ _ _ => trivial
          operations := fun _ _ _ _ _ => trivial
          operation := fun _ _ _ _ _ _ _ => trivial
          operand := fun handler _ _ _ _ => by cases handler <;> trivial
          block := fun _ _ => trivial
          blockStatements := fun _ _ _ _ => trivial
          statement := fun _ _ => trivial
          statementBy := fun handler _ _ _ _ => by cases handler <;> trivial }
  | succ fuel h =>
      exact
        { expression := fun power _ _ => expression_settles h power
          operations := fun power left _ _ => operations_settles h power left
          operation := fun handler left power _ _ => operation_settles h handler left power
          operand := fun handler _ _ => operand_settles h handler
          block := block_settles h
          blockStatements := fun found _ _ => blockStatements_settles h found
          statement := statement_settles h
          statementBy := fun handler _ _ => statementBy_settles h handler }

/-- At the end of the input the account stays settled. -/
theorem statements_settles_of_end
    {source : String} {fuel held : Nat} {parser : Parser} {found : List Stmt}
    (settled : parser.Settled source (held + Stmt.countAll found))
    (atEnd : parser.current.kind = .eof) :
    (statements fuel found).Settles source Stmt.countAll held parser := by
  cases fuel with
  | zero =>
      trivial
  | succ fuel =>
      simp only [statements, Step.Settles, current_bind, atEnd, if_true]
      exact settles_pure (by rwa [Stmt.countAll_reverse])

theorem statements_settles (source : String) (fuel : Nat) (found : List Stmt) {held : Nat}
    {parser : Parser} (fresh : parser.Fresh source (held + Stmt.countAll found)) :
    (statements fuel found).Settles source Stmt.countAll held parser := by
  induction fuel generalizing found parser with
  | zero =>
      trivial
  | succ fuel ih =>
      by_cases last : parser.current.kind = .eof
      · exact statements_settles_of_end fresh.opened.settled last
      · simp only [statements, Step.Settles, current_bind, last, if_false]
        have begun := (settles_of_fuel source fuel).statement fresh last
        refine settles_bind (settles_recovering begun) (Nat.le_add_right _ _) ?_
        intro read ended settled
        have settled : ended.Settled source (held + Stmt.countAll (read.toList ++ found)) := by
          refine settled.mono ?_
          cases read with
          | none =>
              exact Nat.le_refl _
          | some statement =>
              simp only [Option.toList_some, List.singleton_append, Stmt.countAll, Option.map_some,
                Option.getD_some]
              omega
        refine settles_advance ?_
        by_cases atEnd : ended.current.kind = .eof
        · rw [Parser.advance_of_nil (settled.regular.tokens_eq_nil atEnd)]
          exact statements_settles_of_end settled atEnd
        · exact ih _ (settled.advance atEnd)

end Grammar

namespace Parser

theorem fresh_ofSource (source : String) (event : Event)
    (statement : event.statement? = none) (expression : event.expression? = none) :
    ((ofSource source).note event).Fresh source 0 := by
  have regular := regular_ofSource source
  constructor
  · exact regular.keep rfl rfl
  · rw [statementsBegun_note, statement]
    exact List.Sublist.refl _
  · rw [expressionsBegun_note, expression]
    exact List.Sublist.refl _
  · exact Nat.zero_le _

/-- What a text has been parsed to is the balance of a settled account. -/
theorem exists_settled_ofSource (source : String) :
    ∃ ended : Parser,
      ended.Settled source (Stmt.countAll (parse source).program.statements) ∧
      (parse source).diagnostics = ended.diagnostics.toList ∧
      (parse source).trace.filterMap Event.statement? = ended.statementsBegun ∧
      (parse source).trace.filterMap Event.expression? = ended.expressionsBegun := by
  let begun := (ofSource source).note (.programBegun (ofSource source).stream.stop)
  obtain ⟨all, ended, outcome⟩ := begun.statements_eq_done
  have settles := Grammar.statements_settles source begun.fuel []
    (fresh_ofSource source (.programBegun (ofSource source).stream.stop) rfl rfl)
  rw [Step.Settles, show _ = _ from outcome] at settles
  have settled : ended.Settled source (0 + Stmt.countAll all) := settles
  rw [Nat.zero_add] at settled
  have whole : (ofSource source).readProgram =
      (⟨all⟩, ended.note (.programEnded all.length ended.diagnostics.size)) := by
    simp only [readProgram]
    rw [readStatements_of_done outcome]
  refine ⟨ended, ?_, ?_, ?_, ?_⟩
  · simpa [parse, whole] using settled
  · simp [parse, whole, note]
  · simp [parse, whole, note, statementsBegun, Event.statement?]
  · simp [parse, whole, note, expressionsBegun, Event.expression?]

end Parser

namespace Token

/-- Some tokens of a text, in its order, are those at some places that increase. -/
theorem exists_places {source : String} {tokens : List Token}
    (h : tokens.Sublist (tokenize source)) :
    ∃ places : List Nat, places.Pairwise (· < ·) ∧ tokens = places.map (ofSource source) ∧
      ∀ place ∈ places, place < (tokenize source).length := by
  obtain ⟨places, rfl, ordered⟩ := List.sublist_eq_map_getElem h
  refine ⟨places.map Fin.val, List.pairwise_map.mpr ordered, ?_, ?_⟩
  · rw [List.map_map]
    refine List.map_congr_left fun place _ => ?_
    simp [ofSource]
  · intro place mem
    obtain ⟨inside, _, rfl⟩ := List.mem_map.mp mem
    exact inside.isLt

/-- All tokens of a text but the last are not the end of the input. -/
theorem countP_tokenize (source : String) :
    (tokenize source).countP (fun token => token.kind ≠ .eof) = (scan 0 source.toList).length := by
  rw [tokenize, List.countP_append, List.countP_eq_length.mpr]
  · simp [endOfInput]
  · intro token mem
    simpa using (spelled_of_mem_scan mem).spells.ne_eof

end Token

/-- Statements are begun at tokens of the text that follow one another, none of which is the end of
the input, and so are expressions, one of which may be begun at the end of the input.  The
statements of the tree, on the top level and in all blocks, and the diagnostics are together not
more than the tokens before the end of the input. -/
theorem parse_begins_once (source : String) :
    (∃ places : List Nat, places.Pairwise (· < ·) ∧
      (parse source).trace.filterMap Event.statement? = places.map (Token.ofSource source) ∧
      ∀ place ∈ places, place < (tokenize source).length ∧
        (Token.ofSource source place).kind ≠ .eof) ∧
    (∃ places : List Nat, places.Pairwise (· < ·) ∧
      (parse source).trace.filterMap Event.expression? = places.map (Token.ofSource source) ∧
      ∀ place ∈ places, place < (tokenize source).length) ∧
    ((parse source).trace.filterMap Event.expression?).countP (fun token => token.kind = .eof) ≤ 1 ∧
    Stmt.countAll (parse source).program.statements + (parse source).diagnostics.length ≤
      (tokenize source).countP (fun token => token.kind ≠ .eof) := by
  obtain ⟨ended, settled, recorded, sameStatements, sameExpressions⟩ :=
    Parser.exists_settled_ofSource source
  rw [sameStatements, sameExpressions, recorded, Token.countP_tokenize]
  have statements := (List.sublist_append_left _ _).trans settled.statements
  have expressions := (List.sublist_append_left _ _).trans settled.expressions
  refine ⟨?_, Token.exists_places expressions, ?_, ?_⟩
  · obtain ⟨places, ordered, same, inside⟩ :=
      Token.exists_places (statements.trans (List.sublist_append_left _ [_]))
    refine ⟨places, ordered, same, fun place mem => ⟨inside place mem, ?_⟩⟩
    have begun : Token.ofSource source place ∈ ended.statementsBegun :=
      same ▸ List.mem_map_of_mem mem
    exact (Token.spelled_of_mem_scan (statements.subset begun)).spells.ne_eof
  · refine Nat.le_trans expressions.countP_le ?_
    rw [tokenize, List.countP_append, List.countP_eq_zero.mpr]
    · simp [Token.endOfInput]
    · intro token mem
      simpa using (Token.spelled_of_mem_scan mem).spells.ne_eof
  · exact Nat.le_trans settled.paid statements.length_le

end LetLang
