import LetLang.Proofs.Parser.Reports

/-!
# Parsers that agree up to an offset

Two parsers whose tokens are the same up to an offset do the same until one of them looks at a token
behind it.  From then on they may do different things, but whatever they still find fault with is
behind the offset as well, since no step looks back at a token that it has passed.

`Parser.Together` relates two parsers that have not parted, `Parser.Past` is what is left to say of
one that has, and `Outcome.Agrees` compares the ends of one step that was begun at both.
-/

namespace LetLang

namespace Parser

/-- The diagnostics before an offset. -/
def early (bound : Nat) (parser : Parser) : List Diagnostic :=
  parser.diagnostics.toList.filter fun diagnostic => diagnostic.position < bound

/-- A parser with some diagnostics before an offset, whose next token is not before it. -/
structure Past (parser : Parser) (bound : Nat) (kept : List Diagnostic) : Prop where
  regular : parser.Regular
  reached : bound ≤ parser.next.start
  early : parser.early bound = kept

/-- Two parsers at one token, with the same tokens ahead and the same diagnostics up to an
offset. -/
structure Together (bound : Nat) (first second : Parser) : Prop where
  regular : first.Regular
  regular' : second.Regular
  ahead : ∃ token shared behind behind', first.ahead = token :: (shared ++ behind) ∧
    second.ahead = token :: (shared ++ behind') ∧ ∀ other ∈ behind ++ behind', bound ≤ other.start
  depth : second.depth = first.depth
  early : second.early bound = first.early bound

section Past

variable {begun ended : Parser} {bound floor : Nat}

/-- What is reported from an offset on leaves the diagnostics before it as they are. -/
theorem Reports.past (h : begun.Reports ended floor) (regular : begun.Regular)
    (le : bound ≤ floor) :
    ended.Past bound (begun.early bound) := by
  obtain ⟨added, whole, _, sound⟩ := h.recorded
  refine ⟨regular.extends h.extension, Nat.le_trans le h.reached, ?_⟩
  have late : added.filter (fun diagnostic => diagnostic.position < bound) = [] := by
    rw [List.filter_eq_nil_iff]
    intro diagnostic mem
    have above := (sound diagnostic mem).1.1
    simp only [decide_eq_true_eq]
    omega
  rw [Parser.early, whole, List.filter_append, late, List.append_nil]
  rfl

/-- Behind what is past, the next token is not looked back from. -/
theorem Past.reports {kept : List Diagnostic} (h : begun.Past bound kept)
    (reports : begun.Reports ended begun.next.start) :
    ended.Past bound kept := by
  have past := reports.past h.regular h.reached
  rwa [h.early] at past

theorem Past.leave {kept : List Diagnostic} (h : begun.Past bound kept) :
    begun.leave.Past bound kept :=
  ⟨h.regular.keep rfl rfl, h.reached, h.early⟩

end Past

namespace Together

variable {bound : Nat} {first second : Parser}

theorem current (h : Together bound first second) :
    second.current = first.current := by
  obtain ⟨token, _, _, _, ahead, ahead', _⟩ := h.ahead
  rw [ahead_eq_cons, List.cons.injEq] at ahead ahead'
  exact ahead'.1.trans ahead.1.symm

/-- Both parsers pass on to one token, or both come to tokens behind the offset. -/
theorem next_cases (h : Together bound first second) :
    (second.next = first.next ∧ Together bound first.advance second.advance) ∨
      (bound ≤ first.next.start ∧ bound ≤ second.next.start) := by
  have current := h.current
  by_cases atEnd : first.current.kind = .eof
  · have passed := h.regular.tokens_eq_nil atEnd
    have passed' := h.regular'.tokens_eq_nil (current ▸ atEnd)
    rw [next_of_nil passed, next_of_nil passed', advance_of_nil passed, advance_of_nil passed']
    exact .inl ⟨current, h⟩
  · obtain ⟨token, shared, behind, behind', ahead, ahead', far⟩ := h.ahead
    have ahead : first.advance.ahead = shared ++ behind := by
      rw [ahead_advance atEnd, ahead, List.tail_cons]
    have ahead' : second.advance.ahead = shared ++ behind' := by
      rw [ahead_advance (current ▸ atEnd), ahead', List.tail_cons]
    cases shared with
    | nil =>
        refine .inr ⟨far _ (List.mem_append_left _ ?_), far _ (List.mem_append_right _ ?_)⟩
        · rw [List.nil_append] at ahead
          exact ahead ▸ current_mem_ahead first.advance
        · rw [List.nil_append] at ahead'
          exact ahead' ▸ current_mem_ahead second.advance
    | cons next shared =>
        have together : Together bound first.advance second.advance :=
          ⟨h.regular.advance, h.regular'.advance,
            ⟨next, shared, behind, behind', ahead, ahead', far⟩, h.depth, h.early⟩
        exact .inl ⟨together.current, together⟩

theorem note (h : Together bound first second) (event event' : Event) :
    Together bound (first.note event) (second.note event') :=
  ⟨h.regular.keep rfl rfl, h.regular'.keep rfl rfl, h.ahead, h.depth, h.early⟩

theorem record (h : Together bound first second) (diagnostic : Diagnostic) :
    Together bound (first.record diagnostic) (second.record diagnostic) := by
  refine ⟨h.regular.keep rfl rfl, h.regular'.keep rfl rfl, h.ahead, h.depth, ?_⟩
  have early := h.early
  simp only [Parser.early] at early
  simp only [Parser.early, Parser.record, Array.toList_push, List.filter_append, early]

/-- On any one level the parsers are still together. -/
theorem atDepth (h : Together bound first second) (depth : Nat) :
    Together bound { first with depth } { second with depth } :=
  ⟨h.regular.keep rfl rfl, h.regular'.keep rfl rfl, h.ahead, rfl, h.early⟩

theorem leave (h : Together bound first second) :
    Together bound first.leave second.leave :=
  ⟨h.regular.keep rfl rfl, h.regular'.keep rfl rfl, h.ahead, congrArg (· - 1) h.depth, h.early⟩

end Together

end Parser

namespace Outcome

variable {α : Type}

/-- However a step has ended, it has come past an offset, with its diagnostic counted among those
recorded. -/
def Past (outcome : Outcome α) (bound : Nat) (kept : List Diagnostic) : Prop :=
  outcome.Meets (fun _ ended => ended.Past bound kept)
    (fun diagnostic ended => (ended.record diagnostic).Past bound kept)

/-- One step that was begun at two parsers has ended in the same, or has come past an offset on both
sides with the same diagnostics before it. -/
inductive Agrees (bound : Nat) : Outcome α → Outcome α → Prop
  | done {value : α} {ended ended' : Parser} :
      Parser.Together bound ended ended' → Agrees bound (.done value ended) (.done value ended')
  | failed {diagnostic : Diagnostic} {ended ended' : Parser} :
      Parser.Together bound ended ended' →
      Agrees bound (.failed diagnostic ended) (.failed diagnostic ended')
  | parted {outcome outcome' : Outcome α} {kept : List Diagnostic} :
      outcome.Past bound kept → outcome'.Past bound kept → Agrees bound outcome outcome'

end Outcome

namespace Step

open Outcome

variable {α β : Type} {bound floor : Nat} {first second : Parser}

theorem Reports.past {step : Step α} (h : step.Reports first floor) (regular : first.Regular)
    (le : bound ≤ floor) :
    (step first).Past bound (first.early bound) :=
  h.mono (fun _ _ reports => reports.past regular le) (fun _ _ reports => reports.past regular le)

/-- One step ends in the same from both of two parsers, as far as they are the same. -/
def Agrees (step : Step α) (bound : Nat) (first second : Parser) : Prop :=
  (step first).Agrees bound (step second)

theorem agrees_pure (value : α) (together : Parser.Together bound first second) :
    (pure value : Step α).Agrees bound first second :=
  .done together

theorem agrees_fail (cause : Cause) (position : Nat)
    (together : Parser.Together bound first second) :
    (fail cause position : Step α).Agrees bound first second :=
  .failed together

/-- Where both parsers come to tokens behind the offset, a step that looks at the next token at the
earliest agrees.  So it is enough to follow it from one next token. -/
theorem agrees_of_next {step : Step α}
    (together : Parser.Together bound first second)
    (reports : ∀ parser : Parser, parser.Regular → step.Reports parser parser.next.start)
    (near : second.next = first.next → Parser.Together bound first.advance second.advance →
      step.Agrees bound first second) :
    step.Agrees bound first second := by
  rcases together.next_cases with ⟨same, further⟩ | ⟨far, far'⟩
  · exact near same further
  · have past := (reports first together.regular).past together.regular far
    have past' := (reports second together.regular').past together.regular' far'
    rw [together.early] at past'
    exact .parted past past'

theorem agrees_bind
    {step : Step α} {next : α → Step β}
    (begin : step.Agrees bound first second)
    (reports : ∀ value (parser : Parser), parser.Regular →
      (next value).Reports parser parser.next.start)
    (rest : ∀ value ended ended', Parser.Together bound ended ended' →
      (next value).Agrees bound ended ended') :
    (step >>= next).Agrees bound first second := by
  have past (parser : Parser) (kept : List Diagnostic) (h : (step parser).Past bound kept) :
      (step.andThen next parser).Past bound kept := by
    refine meets_bind h ?_ (fun _ _ past => past)
    intro value ended past
    exact (reports value ended past.regular).mono
      (fun _ _ reports => past.reports reports) (fun _ _ reports => past.reports reports)
  have pastFirst := past first
  have pastSecond := past second
  clear past
  show (step.andThen next first).Agrees bound (step.andThen next second)
  unfold Step.Agrees at begin
  unfold Step.andThen at pastFirst pastSecond ⊢
  -- `Agrees` can be taken apart only where both of its outcomes are variables.
  generalize step first = outcome, step second = outcome' at begin pastFirst pastSecond ⊢
  cases begin with
  | done together =>
      exact rest _ _ _ together
  | failed together =>
      exact .failed together
  | parted past past' =>
      exact .parted (pastFirst _ past) (pastSecond _ past')

theorem agrees_advance {next : Unit → Step β}
    (rest : (next ()).Agrees bound first.advance second.advance) :
    (advance >>= next).Agrees bound first second :=
  rest

theorem agrees_expect_bind
    {kind : Kind} {next : Token → Step β}
    (together : Parser.Together bound first second)
    (reports : ∀ token (parser : Parser), parser.Regular →
      (next token).Reports parser parser.current.start)
    (rest : Parser.Together bound first.advance second.advance →
      (next first.current).Agrees bound first.advance second.advance) :
    (expect kind >>= next).Agrees bound first second := by
  have current := together.current
  unfold Step.Agrees
  by_cases same : first.current.kind = kind
  · rw [expect_bind_of_kind same, expect_bind_of_kind (current ▸ same), current]
    show (advance >>= fun _ => next first.current).Agrees bound first second
    refine agrees_of_next together ?_ ?_
    · intro parser regular
      exact reports_advance (reports _ _ regular.advance)
    · intro _ further
      exact rest further
  · rw [expect_bind_of_ne same, expect_bind_of_ne (current ▸ same), current]
    exact .failed together

theorem agrees_expectNext_bind
    {kind : Kind} {next : Token → Step β}
    (together : Parser.Together bound first second)
    (reports : ∀ token (parser : Parser), parser.Regular →
      (next token).Reports parser parser.current.start)
    (rest : Parser.Together bound first.advance second.advance →
      (next first.next).Agrees bound first.advance second.advance) :
    (expectNext kind >>= next).Agrees bound first second := by
  refine agrees_of_next together ?_ ?_
  · intro parser regular
    exact reports_expectNext_bind (reports _ _ regular.advance)
  · intro ahead further
    unfold Step.Agrees
    by_cases same : first.next.kind = kind
    · rw [expectNext_bind_of_kind same, expectNext_bind_of_kind (ahead ▸ same), ahead]
      exact rest further
    · rw [expectNext_bind_of_ne same, expectNext_bind_of_ne (ahead ▸ same), ahead]
      exact .failed together

theorem agrees_nested
    {step : Step α} (together : Parser.Together bound first second)
    (inside : ∀ inner inner' : Parser, Parser.Together bound inner inner' →
      inner.current = first.current → step.Agrees bound inner inner') :
    (nested step).Agrees bound first second := by
  have past (parser : Parser) (kept : List Diagnostic) (room : parser.depth < Parser.nestingLimit)
      (h : (step { parser with depth := parser.depth + 1 }).Past bound kept) :
      (nested step parser).Past bound kept :=
    meets_nested (fun _ => h.mono (fun _ _ past => past.leave) (fun _ _ past => past.leave))
      (fun full => absurd room (Nat.not_lt_of_le full))
  have pastFirst := past first
  have pastSecond := past second
  clear past
  have deeper := inside _ _ (together.atDepth (first.depth + 1)) rfl
  unfold Step.Agrees at deeper
  unfold Step.Agrees
  unfold nested Parser.enter at pastFirst pastSecond ⊢
  rw [together.depth] at pastSecond ⊢
  by_cases room : first.depth < Parser.nestingLimit
  · simp only [room, if_true, true_implies] at pastFirst pastSecond ⊢
    generalize step { first with depth := first.depth + 1 } = outcome,
      step { second with depth := first.depth + 1 } = outcome' at deeper pastFirst pastSecond ⊢
    cases deeper with
    | done further =>
        exact .done further.leave
    | failed further =>
        exact .failed further.leave
    | parted past past' =>
        exact .parted (pastFirst _ past) (pastSecond _ past')
  · simp only [room, if_false, together.current]
    exact .failed together

theorem agrees_recovering {step : Step α} (h : step.Agrees bound first second) :
    (recovering step).Agrees bound first second := by
  have past (parser : Parser) (kept : List Diagnostic) (h : (step parser).Past bound kept) :
      (recovering step parser).Past bound kept :=
    meets_recovering h
  have pastFirst := past first
  have pastSecond := past second
  clear past
  unfold Step.Agrees at h
  unfold Step.Agrees
  unfold recovering at pastFirst pastSecond ⊢
  generalize step first = outcome, step second = outcome' at h pastFirst pastSecond ⊢
  cases h with
  | done together =>
      exact .done together
  | failed together =>
      exact .done (together.record _)
  | parted past past' =>
      exact .parted (pastFirst _ past) (pastSecond _ past')

end Step

namespace Grammar

open Step

/-- The steps of the grammar with a number of units of fuel agree up to an offset. -/
structure Agrees (bound fuel : Nat) : Prop where
  expression : ∀ power {first second : Parser}, Parser.Together bound first second →
    (expression fuel power).Agrees bound first second
  operations : ∀ power left {first second : Parser}, Parser.Together bound first second →
    (operations fuel power left).Agrees bound first second
  operation : ∀ handler left power {first second : Parser}, Parser.Together bound first second →
    (operation fuel handler left power).Agrees bound first second
  operand : ∀ handler {first second : Parser}, Parser.Together bound first second →
    (operand fuel handler).Agrees bound first second
  block : ∀ {first second : Parser}, Parser.Together bound first second →
    (block fuel).Agrees bound first second
  blockStatements : ∀ found {first second : Parser}, Parser.Together bound first second →
    (blockStatements fuel found).Agrees bound first second
  statement : ∀ {first second : Parser}, Parser.Together bound first second →
    (statement fuel).Agrees bound first second
  statementBy : ∀ handler {first second : Parser}, Parser.Together bound first second →
    (statementBy fuel handler).Agrees bound first second

section Units

variable {bound fuel : Nat} {first second : Parser}

theorem expression_agrees (h : Agrees bound fuel) (power : Power)
    (together : Parser.Together bound first second) :
    (expression (fuel + 1) power).Agrees bound first second := by
  simp only [expression, Step.Agrees, current_bind, modify_bind, together.current]
  refine agrees_nested (together.note _ _) ?_
  intro inner inner' together _
  have standard := together.regular.handlers
  have standard' := together.regular'.handlers
  simp only [Step.Agrees, read_bind, standard, standard']
  cases Handlers.standard.operand first.current.kind with
  | none =>
      exact agrees_fail _ _ together
  | some handler =>
      exact agrees_bind (h.operand handler together)
        (fun left _ regular => (reports_of_fuel fuel).operations power left regular)
        (fun left _ _ together => h.operations power left together)

theorem operations_agrees (h : Agrees bound fuel) (power : Power) (left : Expr)
    (together : Parser.Together bound first second) :
    (operations (fuel + 1) power left).Agrees bound first second := by
  refine agrees_of_next together
    (fun _ regular => (reports_of_fuel (fuel + 1)).operations power left regular) ?_
  intro ahead further
  have standard := together.regular.handlers
  have standard' := together.regular'.handlers
  simp only [operations, Step.Agrees, read_bind, ahead]
  by_cases binds : power < first.next.kind.power
  · simp only [binds, if_true, read_bind, standard, standard']
    cases Handlers.standard.operator first.next.kind with
    | none =>
        exact agrees_pure left together
    | some handler =>
        refine agrees_advance ?_
        exact agrees_bind (h.operation handler left _ further)
          (fun whole _ regular => (reports_of_fuel fuel).operations power whole regular)
          (fun whole _ _ together => h.operations power whole together)
  · simp only [binds, if_false]
    exact agrees_pure left together

theorem operation_agrees (h : Agrees bound fuel) (handler : OperatorHandler) (left : Expr)
    (power : Power) (together : Parser.Together bound first second) :
    (operation (fuel + 1) handler left power).Agrees bound first second := by
  refine agrees_of_next together
    (fun _ regular => (reports_of_fuel (fuel + 1)).operation handler left power regular) ?_
  intro _ further
  simp only [operation, Step.Agrees, take_bind, together.current]
  cases handler with
  | binary =>
      exact agrees_bind (h.expression power further) (fun _ _ _ => reports_pure _ _)
        (fun _ _ _ => agrees_pure _)
  | binaryLowest =>
      exact agrees_bind (h.expression .lowest further) (fun _ _ _ => reports_pure _ _)
        (fun _ _ _ => agrees_pure _)

theorem alternative_agrees (h : Agrees bound fuel) (whole : Option Block → Expr)
    (together : Parser.Together bound first second) :
    (alternative (block fuel) whole).Agrees bound first second := by
  refine agrees_of_next together
    (fun _ regular => alternative_reports (reports_of_fuel fuel) whole regular) ?_
  intro ahead further
  simp only [alternative, Step.Agrees, read_bind, ahead]
  by_cases isElse : first.next.kind = .elseWord
  · simp only [isElse, if_true]
    refine agrees_expectNext_bind further (fun _ _ regular => ?_) (fun further => ?_)
    · exact (reports_bind regular ((reports_of_fuel fuel).block regular)
        (fun _ _ _ => reports_pure _ _)).fresh regular
    · exact agrees_bind (h.block further) (fun _ _ _ => reports_pure _ _)
        (fun _ _ _ => agrees_pure _)
  · simp only [isElse, if_false]
    exact agrees_pure _ together

theorem branches_agrees (h : Agrees bound fuel) (token : Token) (condition : Expr)
    (together : Parser.Together bound first second) :
    (branches (block fuel) token condition).Agrees bound first second := by
  have reports := reports_of_fuel fuel
  refine agrees_expectNext_bind together (fun _ _ regular => ?_) (fun further => ?_)
  · exact (braced_reports reports token condition regular).fresh regular
  refine agrees_expectNext_bind further (fun _ _ regular => ?_) (fun further => ?_)
  · exact (consequence_reports reports token condition regular).fresh regular
  exact agrees_bind (h.block further)
    (fun _ _ regular => alternative_reports reports _ regular)
    (fun _ _ _ together => alternative_agrees h _ together)

theorem operand_agrees (h : Agrees bound fuel) (handler : OperandHandler)
    (together : Parser.Together bound first second) :
    (operand (fuel + 1) handler).Agrees bound first second := by
  have reports := reports_of_fuel fuel
  cases handler with
  | identifier | boolean =>
      simp only [operand, Step.Agrees, current_bind, together.current]
      exact agrees_pure _ together
  | integer =>
      simp only [operand, Step.Agrees, current_bind, together.current]
      cases Integer.parse first.current.literal with
      | ok value =>
          exact agrees_pure _ together
      | error fault =>
          exact agrees_fail _ _ together
  | float =>
      simp only [operand, Step.Agrees, current_bind, together.current]
      cases Binary64.ofLiteral? first.current.literal with
      | some value =>
          exact agrees_pure _ together
      | none =>
          exact agrees_fail _ _ together
  | unary =>
      refine agrees_of_next together (fun _ regular => unary_reports reports regular) ?_
      intro _ further
      simp only [operand, Step.Agrees, take_bind, together.current]
      exact agrees_bind (h.expression .unary further) (fun _ _ _ => reports_pure _ _)
        (fun _ _ _ => agrees_pure _)
  | group =>
      refine agrees_of_next together (fun _ regular => group_reports reports regular) ?_
      intro _ further
      refine agrees_advance ?_
      refine agrees_bind (h.expression .lowest further)
        (fun inner _ regular => closed_reports inner regular) ?_
      intro inner ended ended' together
      exact agrees_expectNext_bind together
        (fun _ parser regular => (reports_pure inner parser).fresh regular)
        (fun further => agrees_pure inner further)
  | conditional =>
      simp only [operand, Step.Agrees, current_bind, together.current]
      refine agrees_expectNext_bind together
        (fun _ _ regular => (condition_reports reports _ regular).fresh regular) (fun further => ?_)
      refine agrees_of_next further (fun _ regular => condition_reports reports _ regular) ?_
      intro _ further
      refine agrees_advance ?_
      exact agrees_bind (h.expression .lowest further)
        (fun condition _ regular => branches_reports reports _ condition regular)
        (fun condition _ _ together => branches_agrees h _ condition together)

theorem block_agrees (h : Agrees bound fuel) (together : Parser.Together bound first second) :
    (block (fuel + 1)).Agrees bound first second := by
  refine agrees_of_next together (fun _ regular => (reports_of_fuel (fuel + 1)).block regular) ?_
  intro _ further
  simp only [block, Step.Agrees, take_bind, together.current]
  refine agrees_bind (h.blockStatements [] further)
    (fun statements _ regular => closing_reports _ statements regular) ?_
  intro statements ended ended' together
  simp only [Step.Agrees, current_bind, together.current]
  by_cases atEnd : ended.current.kind = .eof
  · simp only [atEnd, if_true]
    exact agrees_fail _ _ together
  · simp only [atEnd, if_false]
    exact agrees_pure _ together

theorem advance_blockStatements_agrees (h : Agrees bound fuel) (found : List Stmt)
    (together : Parser.Together bound first second) :
    (do
      Step.advance
      blockStatements fuel found : Step (List Stmt)).Agrees bound first second := by
  refine agrees_of_next together
    (fun _ regular => advance_blockStatements_reports (reports_of_fuel fuel) found regular) ?_
  intro _ further
  exact h.blockStatements found further

theorem blockStatements_agrees (h : Agrees bound fuel) (found : List Stmt)
    (together : Parser.Together bound first second) :
    (blockStatements (fuel + 1) found).Agrees bound first second := by
  have reports := reports_of_fuel fuel
  simp only [blockStatements, Step.Agrees, current_bind, together.current]
  by_cases last : first.current.kind = .closeBrace ∨ first.current.kind = .eof
  · simp only [last, if_true]
    exact agrees_pure _ together
  · simp only [last, if_false]
    refine agrees_bind (agrees_recovering (h.statement together)) ?_ ?_
    · intro read parser regular
      cases read with
      | some statement =>
          exact advance_blockStatements_reports reports _ regular
      | none =>
          exact stopped_blockStatements_reports reports found regular
    · intro read ended ended' together
      cases read with
      | some statement =>
          exact advance_blockStatements_agrees h _ together
      | none =>
          simp only [Step.Agrees, current_bind, together.current]
          by_cases closed : ended.current.kind = .closeBrace
          · simp only [closed, if_true]
            exact h.blockStatements found together
          · simp only [closed, if_false]
            exact advance_blockStatements_agrees h found together

theorem statement_agrees (h : Agrees bound fuel) (together : Parser.Together bound first second) :
    (statement (fuel + 1)).Agrees bound first second := by
  have standard := together.regular.handlers
  have standard' := together.regular'.handlers
  simp only [statement, Step.Agrees, current_bind, modify_bind, read_bind, together.current,
    Parser.handlers_note, standard, standard']
  exact h.statementBy _ (together.note _ _)

/-- Behind the value of a statement its semicolon is expected. -/
theorem terminated_agrees (h : Agrees bound fuel) (result : Expr → Stmt)
    (together : Parser.Together bound first second) :
    (do
      let value ← expression fuel .lowest
      let _ ← Step.expectNext .semicolon
      pure (result value) : Step Stmt).Agrees bound first second := by
  refine agrees_bind (h.expression .lowest together)
    (fun value _ regular => semicolon_reports (result value) regular) ?_
  intro value ended ended' together
  exact agrees_expectNext_bind together
    (fun _ parser regular => (reports_pure (result value) parser).fresh regular)
    (fun further => agrees_pure (result value) further)

theorem statementBy_agrees (h : Agrees bound fuel) (handler : StatementHandler)
    (together : Parser.Together bound first second) :
    (statementBy (fuel + 1) handler).Agrees bound first second := by
  have reports := reports_of_fuel fuel
  cases handler with
  | binding =>
      refine agrees_expect_bind together (fun _ _ regular => ?_) (fun further => ?_)
      · exact reports_expect_bind regular (reports_expect_bind regular.advance
          (terminated_reports reports _ regular.advance.advance))
      refine agrees_expect_bind further (fun _ _ regular => ?_) (fun further => ?_)
      · exact reports_expect_bind regular (terminated_reports reports _ regular.advance)
      refine agrees_expect_bind further (fun _ _ regular => ?_) (fun further => ?_)
      · exact terminated_reports reports _ regular
      exact terminated_agrees h _ further
  | returning =>
      refine agrees_expect_bind together
        (fun token _ regular => returned_reports reports token regular) (fun further => ?_)
      simp only [Step.Agrees, current_bind, further.current]
      split
      · exact agrees_pure _ further
      · exact terminated_agrees h _ further
  | expression =>
      simp only [statementBy, Step.Agrees, current_bind, together.current]
      refine agrees_bind (h.expression .lowest together)
        (fun value _ regular => optional_reports _ regular) ?_
      intro value ended ended' together
      refine agrees_of_next together (fun _ regular => optional_reports _ regular) ?_
      intro ahead further
      simp only [Step.Agrees, read_bind, ahead]
      split
      · exact agrees_pure _ further
      · exact agrees_pure _ together
  | block =>
      exact agrees_bind (h.block together) (fun _ _ _ => reports_pure _ _)
        (fun _ _ _ => agrees_pure _)

end Units

theorem agrees_of_fuel (bound fuel : Nat) :
    Agrees bound fuel := by
  have exhausted {α : Type} {first second : Parser} :
      (outOfFuel : Step α).Agrees bound first second :=
    @Outcome.Agrees.parted _ _ _ _ [] trivial trivial
  induction fuel with
  | zero =>
      exact
        { expression := fun _ _ _ _ => exhausted
          operations := fun _ _ _ _ _ => exhausted
          operation := fun _ _ _ _ _ _ => exhausted
          operand := fun handler _ _ _ => by cases handler <;> exact exhausted
          block := fun _ => exhausted
          blockStatements := fun _ _ _ _ => exhausted
          statement := fun _ => exhausted
          statementBy := fun handler _ _ _ => by cases handler <;> exact exhausted }
  | succ fuel h =>
      exact
        { expression := fun power _ _ => expression_agrees h power
          operations := fun power left _ _ => operations_agrees h power left
          operation := fun handler left power _ _ => operation_agrees h handler left power
          operand := fun handler _ _ => operand_agrees h handler
          block := block_agrees h
          blockStatements := fun found _ _ => blockStatements_agrees h found
          statement := statement_agrees h
          statementBy := fun handler _ _ => statementBy_agrees h handler }

theorem statements_agrees (bound fuel : Nat) (found : List Stmt) {first second : Parser}
    (together : Parser.Together bound first second) :
    (statements fuel found).Agrees bound first second := by
  induction fuel generalizing found first second with
  | zero =>
      exact @Outcome.Agrees.parted _ _ _ _ [] trivial trivial
  | succ fuel ih =>
      simp only [statements, Step.Agrees, current_bind, together.current]
      split
      · exact agrees_pure _ together
      · have read := (agrees_of_fuel bound fuel).statement together
        refine agrees_bind (agrees_recovering read) ?_ ?_
        · intro read parser regular
          exact reports_advance (statements_reports fuel _ regular.advance)
        · intro read ended ended' together
          refine agrees_of_next together
            (fun _ regular => reports_advance (statements_reports fuel _ regular.advance)) ?_
          intro _ further
          exact ih _ further

end Grammar
end LetLang
