import LetLang.Proofs.Parser.Source

/-!
# What is read was there

Whatever a step of the grammar ends in comes from a concrete tree in front of the parser.

**Proof.** By induction on the fuel.  The loop over operators is given the concrete tree of its
left operand, together with the place where that operand begins; the loops over statements are
not, since a statement does not depend on those before it.
-/

namespace LetLang
namespace Concrete

open Step Grammar

/-- What the steps of the grammar end in with a number of units of fuel was there. -/
structure Sound (fuel : Nat) : Prop where
  expression : ∀ power {parser : Parser}, parser.Ready →
    (expression fuel power).Yields parser fun value ended =>
      Expr.IsSource parser ended power 0 value
  operations : ∀ power (left : Expr) {begun parser : Parser},
    begun.Ready → begun.Extends parser →
    left.LeadsFrom begun parser power →
    (operations fuel power left.erase).Yields parser fun value ended =>
      Expr.IsSource begun ended power 1 value
  operation : ∀ left {parser : Parser}, parser.Ready →
    parser.current.kind ∈ binaryOperators →
    (operation fuel .binary left parser.current.kind.power).Yields parser fun value ended =>
      Expr.IsOperationSource parser ended left value
  operand : ∀ handler {parser : Parser}, parser.Ready →
    Handlers.standard.operand parser.current.kind = some handler →
    (operand fuel handler).Yields parser fun value ended =>
      Expr.IsOperandSource parser ended value
  block : ∀ {parser : Parser}, parser.Ready →
    parser.current.kind = .openBrace →
    (block fuel).Yields parser fun value ended => Block.IsSource parser ended value
  blockStatements : ∀ found {parser : Parser}, parser.Ready →
    (blockStatements fuel found).Yields parser fun values ended =>
      (ended.current.kind = .closeBrace ∨ ended.current.kind = .eof) ∧
        Stmt.AreSource parser ended found values
  statement : ∀ {parser : Parser}, parser.Ready →
    (statement fuel).Yields parser fun value ended => Stmt.IsSource parser ended value
  statementBy : ∀ handler {parser : Parser}, parser.Ready →
    (Handlers.standard.statement parser.current.kind).getD .expression = handler →
    (statementBy fuel handler).Yields parser fun value ended =>
      Stmt.IsSource parser ended value

section Expressions

variable {fuel : Nat} {parser : Parser}

theorem operations_sound (h : Sound fuel) (power : Power) (left : Expr)
    {begun : Parser} (ready : begun.Ready) (extension : begun.Extends parser)
    (leads : left.LeadsFrom begun parser power) :
    (operations (fuel + 1) power left.erase).Yields parser fun value ended =>
      Expr.IsSource begun ended power 1 value := by
  refine ((onward_of_fuel _).operations power _).yields ?_
  have here := ready.extends extension
  simp only [operations, read_bind]
  by_cases binds : power < parser.next.kind.power
  · have isOperator := mem_binaryOperators binds
    have notEnd := ne_eof_of_mem isOperator
    have current : parser.advance.current = parser.next :=
      Parser.current_advance_of_behind (Parser.behind_of_next notEnd)
    simp only [binds, if_true, read_bind, here.handlers, operator_of_mem isOperator, advance_bind]
    rw [← current] at isOperator binds ⊢
    refine yields_bind (h.operation left.erase here.advance isOperator) ?_
    rintro value atRight extension' ⟨right, rfl, covers, clean⟩
    have passed := extension.trans (Parser.Extends.advance parser)
    have covers := leads.covers.append (covers.of_extends passed)
    let whole : Expr := .binary left ⟨parser.advance.current, isOperator⟩ right
    have wholeLeads : whole.LeadsFrom begun atRight power := by
      refine ⟨leads.first, ⟨covers.tokens, ?_⟩, fun same => ?_⟩
      · have positive := left.nesting_pos
        have fits := covers.fits
        simp only [Parser.Fits, whole, Expr.nesting] at *
        omega
      · obtain ⟨before, after⟩ := passed.diagnostics_eq extension' same
        obtain ⟨fills, weaker⟩ := leads.clean before
        obtain ⟨wellFormed, stronger, tokens, closed⟩ := clean after
        rw [← current] at weaker
        refine ⟨⟨⟨weaker, stronger, fills.wellFormed, wellFormed⟩, fun _ => binds, ?_⟩, closed⟩
        rw [fills.tokens, ← Parser.tokens_advance, tokens]
        simp [whole, Expr.tokens]
    exact (h.operations power whole ready (passed.trans extension') wholeLeads).meets
  · simp only [binds, if_false]
    exact ⟨left, rfl, leads.first, leads.covers, fun same => ⟨(leads.clean same).1, binds⟩⟩

theorem operand_operations_sound (h : Sound fuel) (power : Power) (ready : parser.Ready)
    {handler : OperandHandler}
    (known : Handlers.standard.operand parser.current.kind = some handler) :
    ((operand fuel handler >>= operations fuel power) parser).Meets
      (fun value ended => Expr.IsSource parser ended power 1 value) (fun _ _ => True) := by
  refine yields_bind (h.operand handler ready known) ?_
  rintro value atLeft extension ⟨left, rfl, first, notBinary, covers, clean⟩
  refine (h.operations power left ready extension ⟨first, covers, fun same => ?_⟩).meets
  obtain ⟨wellFormed, tokens⟩ := clean same
  refine ⟨⟨wellFormed, fun binary => absurd binary notBinary, tokens⟩, ?_⟩
  rw [Expr.level_eq_unary notBinary]
  exact Power.le_of_lt (Kind.power_lt_unary _)

theorem expression_sound (h : Sound fuel) (power : Power) (ready : parser.Ready) :
    (expression (fuel + 1) power).Yields parser fun value ended =>
      Expr.IsSource parser ended power 0 value := by
  refine ((onward_of_fuel _).expression power).yields ?_
  simp only [expression, current_bind, modify_bind]
  refine meets_nested (fun room => ?_) (fun _ => trivial)
  have inside : Parser.Ready
      { parser.note (.expressionBegun parser.current) with depth := parser.depth + 1 } :=
    ⟨ready.handlers, room⟩
  simp only [read_bind]
  cases known : parser.handlers.operand parser.current.kind with
  | none =>
      simp only [Parser.handlers_note, known]
      trivial
  | some handler =>
      simp only [Parser.handlers_note, known]
      refine (operand_operations_sound h power inside (ready.handlers ▸ known)).imp ?_
      rintro value ended ⟨e, rfl, first, covers, clean⟩
      have fits : parser.Fits e.nesting := by
        have positive := e.nesting_pos
        have inside : parser.depth + 1 + (e.nesting - 1) ≤ Parser.nestingLimit := covers.fits
        unfold Parser.Fits
        omega
      refine ⟨e, rfl, first, ⟨covers.tokens, fits⟩, fun same => ?_⟩
      obtain ⟨fills, closed⟩ := clean same
      exact ⟨⟨fills.wellFormed, fills.binds, fills.tokens⟩, closed⟩

theorem operation_sound (h : Sound fuel) (left : LetLang.Expr) (ready : parser.Ready)
    (isOperator : parser.current.kind ∈ binaryOperators) :
    (operation (fuel + 1) .binary left parser.current.kind.power).Yields parser
      fun value ended => Expr.IsOperationSource parser ended left value := by
  refine ((onward_of_fuel _).operation .binary left _).yields ?_
  simp only [operation, take_bind]
  refine yields_bind (h.expression parser.current.kind.power ready.advance) ?_
  rintro value ended extension ⟨right, rfl, _, covers, clean⟩
  have notEnd := ne_eof_of_mem isOperator
  have here := Parser.tokens_of_current notEnd
  refine ⟨right, rfl, ?_, fun same => ?_⟩
  · exact (covers.of_extends (Parser.Extends.advance parser)).cons (Parser.mem_of_tokens here)
  · obtain ⟨fills, closed⟩ := clean same
    refine ⟨fills.wellFormed, ?_, ?_, Power.not_lt.mp closed⟩
    · by_cases binary : right.IsBinary
      · exact fills.binds binary
      · rw [Expr.level_eq_unary binary]
        exact Kind.power_lt_unary _
    · rw [here, ← Parser.tokens_advance, fills.tokens]

end Expressions

section Operands

variable {fuel : Nat} {parser : Parser}

/-- One token that is an operand is the tree of what it stands for. -/
theorem Expr.isOperandSource_of_token
    {e : Expr} (single : e.tokens = [parser.current]) (first : e.first = parser.current)
    (leaf : e.nesting = 1) (notBinary : ¬ e.IsBinary) (wellFormed : e.WellFormed)
    (ready : parser.Ready) (here : parser.stream.tokens = parser.current :: parser.behind) :
    Expr.IsOperandSource parser parser e.erase := by
  refine ⟨e, rfl, first, notBinary, ?_, fun _ => ⟨wellFormed, ?_⟩⟩
  · rw [single, leaf]
    exact (Parser.Covers.nil ready).cons (Parser.mem_of_tokens here)
  · rw [single, here]
    rfl

theorem unary_sound (h : Sound fuel) (ready : parser.Ready)
    (operator : TokenOf unaryOperators)
    (here : parser.stream.tokens = operator.token :: parser.behind) :
    (operand (fuel + 1) .unary parser).Meets
      (fun value ended => Expr.IsOperandSource parser ended value) (fun _ _ => True) := by
  have current : parser.current = operator.token := Parser.current_of_tokens here
  simp only [operand, take_bind, current]
  refine yields_bind (h.expression .unary ready.advance) ?_
  rintro value ended extension ⟨right, rfl, _, covers, clean⟩
  refine ⟨.unary operator right, rfl, current.symm, id, ?_, fun same => ?_⟩
  · simp only [Expr.nesting, Nat.add_sub_cancel_left]
    exact (covers.of_extends (Parser.Extends.advance parser)).cons (Parser.mem_of_tokens here)
  · obtain ⟨fills, _⟩ := clean same
    refine ⟨⟨fun binary => ?_, fills.wellFormed⟩, ?_⟩
    · exact absurd (fills.binds binary) (Power.not_lt.mpr right.level_le_unary)
    · rw [here, ← Parser.tokens_advance, fills.tokens]
      rfl

theorem group_sound (h : Sound fuel) (ready : parser.Ready)
    (opening : TokenOf [.openParen])
    (here : parser.stream.tokens = opening.token :: parser.behind) :
    (operand (fuel + 1) .group parser).Meets
      (fun value ended => Expr.IsOperandSource parser ended value) (fun _ _ => True) := by
  simp only [operand, advance_bind]
  refine yields_bind (h.expression .lowest ready.advance) ?_
  rintro value atInner extension ⟨inner, rfl, _, covers, clean⟩
  refine meets_expectNext_bind (by decide) (fun closing behind => ?_)
  have passed := (Parser.Extends.advance parser).trans extension
  refine ⟨.group opening inner closing, rfl, (Parser.current_of_tokens here).symm, id, ?_,
    fun same => ?_⟩
  · simp only [Expr.nesting, Nat.add_sub_cancel_left]
    exact ((covers.of_extends (Parser.Extends.advance parser)).concat
      (passed.mem_tokens (Parser.mem_of_behind behind))).cons (Parser.mem_of_tokens here)
  · obtain ⟨fills, _⟩ := clean same
    refine ⟨fills.wellFormed, ?_⟩
    rw [here, ← Parser.tokens_advance, fills.tokens, behind]
    simp [Expr.tokens]

/-- The end of a conditional behind its first block. -/
theorem alternative_sound (h : Sound fuel) (whole : Option LetLang.Block → LetLang.Expr)
    (ready : parser.Ready) :
    (alternative (block fuel) whole).Yields parser fun value ended =>
      ∃ a : Alternative, whole a.erase = value ∧ parser.Covers a.tokens a.nesting ∧
        (ended.diagnostics = parser.diagnostics →
          a.WellFormed ∧ parser.behind = a.tokens ++ ended.behind) := by
  refine (alternative_onward (onward_of_fuel fuel) whole).yields ?_
  simp only [alternative, read_bind]
  by_cases isElse : parser.next.kind = .elseWord
  · have behind : parser.behind = parser.next :: parser.advance.behind :=
      Parser.behind_of_next (by rw [isElse]; decide)
    simp only [isElse, if_true, advance_bind]
    refine meets_expectNext_bind (by decide) (fun opening behind' => ?_)
    have current : parser.advance.advance.current = opening.token :=
      Parser.current_advance_of_behind behind'
    refine yields_bind
      (h.block ready.advance.advance (by rw [current, opening.kind_eq])) ?_
    rintro value ended extension ⟨b, rfl, covers, clean⟩
    have passed := (Parser.Extends.advance parser).trans (Parser.Extends.advance _)
    refine ⟨.present ⟨parser.next, List.mem_singleton.mpr isElse⟩ b, rfl, ?_, fun same => ?_⟩
    · exact (covers.of_extends passed).cons (Parser.mem_of_behind behind)
    · obtain ⟨wellFormed, tokens⟩ := clean same
      refine ⟨wellFormed, ?_⟩
      rw [behind, ← Parser.tokens_advance, tokens]
      rfl
  · simp only [isElse, if_false]
    exact ⟨.absent, rfl, Parser.Covers.nil ready, fun _ => ⟨trivial, rfl⟩⟩

/-- The end of a conditional behind its condition. -/
theorem branches_sound (h : Sound fuel) (token : Token) (condition : LetLang.Expr)
    (ready : parser.Ready) :
    (branches (block fuel) token condition).Yields parser fun value ended =>
      ∃ (closing : TokenOf [.closeParen]) (b : Block) (a : Alternative),
        .conditional token condition b.erase a.erase = value ∧
          parser.Covers (closing.token :: (b.tokens ++ a.tokens)) (max b.nesting a.nesting) ∧
            (ended.diagnostics = parser.diagnostics →
              b.WellFormed ∧ a.WellFormed ∧
                parser.behind = closing.token :: (b.tokens ++ a.tokens) ++ ended.behind) := by
  refine (branches_onward (onward_of_fuel fuel) token condition).yields ?_
  refine meets_expectNext_bind (by decide) (fun closing behind => ?_)
  refine meets_expectNext_bind (by decide) (fun opening behind' => ?_)
  have current : parser.advance.advance.current = opening.token :=
    Parser.current_advance_of_behind behind'
  have passed := (Parser.Extends.advance parser).trans (Parser.Extends.advance _)
  refine yields_bind
    (h.block ready.advance.advance (by rw [current, opening.kind_eq])) ?_
  rintro value atBrace extension ⟨b, rfl, covers, clean⟩
  have since := passed.trans extension
  refine (alternative_sound h _ (ready.extends since)).imp ?_
  rintro value ended ⟨onward, a, rfl, covers', clean'⟩
  refine ⟨closing, b, a, rfl, ?_, fun same => ?_⟩
  · exact ((covers.of_extends passed).append (covers'.of_extends since)).cons
      (Parser.mem_of_behind behind)
  · obtain ⟨before, after⟩ := extension.diagnostics_eq onward same
    obtain ⟨wellFormed, tokens⟩ := clean before
    obtain ⟨wellFormed', tokens'⟩ := clean' after
    refine ⟨wellFormed, wellFormed', ?_⟩
    rw [behind, ← Parser.tokens_advance, tokens, tokens']
    simp

theorem conditional_sound (h : Sound fuel) (ready : parser.Ready)
    (word : TokenOf [.ifWord])
    (here : parser.stream.tokens = word.token :: parser.behind) :
    (operand (fuel + 1) .conditional parser).Meets
      (fun value ended => Expr.IsOperandSource parser ended value) (fun _ _ => True) := by
  have current : parser.current = word.token := Parser.current_of_tokens here
  simp only [operand, current_bind, current]
  refine meets_expectNext_bind (by decide) (fun opening behind => ?_)
  have passed := (Parser.Extends.advance parser).trans (Parser.Extends.advance _)
  simp only [advance_bind]
  refine yields_bind (h.expression .lowest ready.advance.advance) ?_
  rintro value atCondition extension ⟨condition, rfl, _, covers, clean⟩
  have since := passed.trans extension
  refine (branches_sound h _ _ (ready.extends since)).imp ?_
  rintro value ended ⟨onward, closing, b, a, rfl, covers', clean'⟩
  refine ⟨.conditional word opening condition closing b a, rfl, current.symm, id, ?_,
    fun same => ?_⟩
  · simp only [Expr.nesting, Nat.add_sub_cancel_left]
    exact (((covers.of_extends passed).append (covers'.of_extends since)).cons
      (Parser.mem_of_behind behind)).cons (Parser.mem_of_tokens here)
  · obtain ⟨before, after⟩ := extension.diagnostics_eq onward same
    obtain ⟨fills, _⟩ := clean before
    obtain ⟨wellFormed, wellFormed', tokens⟩ := clean' after
    refine ⟨⟨fills.wellFormed, wellFormed, wellFormed'⟩, ?_⟩
    rw [here, behind, ← Parser.tokens_advance, fills.tokens, tokens]
    simp [Expr.tokens]

theorem operand_sound (h : Sound fuel) (handler : OperandHandler) (ready : parser.Ready)
    (known : Handlers.standard.operand parser.current.kind = some handler) :
    (operand (fuel + 1) handler).Yields parser fun value ended =>
      Expr.IsOperandSource parser ended value := by
  refine ((onward_of_fuel _).operand handler).yields ?_
  have mem := mem_kinds_of_operand known
  have here : parser.stream.tokens = parser.current :: parser.behind := by
    refine Parser.tokens_of_current ?_
    intro same
    rw [same] at known
    cases known
  cases handler with
  | identifier =>
      exact Expr.isOperandSource_of_token (e := .identifier ⟨parser.current, mem⟩)
        rfl rfl rfl id trivial ready here
  | integer =>
      simp only [operand, current_bind]
      cases converts : Integer.parse parser.current.literal with
      | ok value =>
          exact Expr.isOperandSource_of_token
            (e := .integer ⟨⟨parser.current, mem⟩, value, converts⟩)
            rfl rfl rfl id trivial ready here
      | error fault =>
          trivial
  | float =>
      simp only [operand, current_bind]
      cases converts : Binary64.ofLiteral? parser.current.literal with
      | some value =>
          exact Expr.isOperandSource_of_token
            (e := .float ⟨⟨parser.current, mem⟩, value, converts⟩)
            rfl rfl rfl id trivial ready here
      | none =>
          trivial
  | boolean =>
      exact Expr.isOperandSource_of_token (e := .boolean ⟨parser.current, mem⟩)
        rfl rfl rfl id trivial ready here
  | unary =>
      exact unary_sound h ready ⟨parser.current, mem⟩ here
  | group =>
      exact group_sound h ready ⟨parser.current, mem⟩ here
  | conditional =>
      exact conditional_sound h ready ⟨parser.current, mem⟩ here

end Operands

section Statements

variable {fuel : Nat} {parser : Parser}

/-- A value and the semicolon behind it. -/
theorem terminated_sound (h : Sound fuel) (result : LetLang.Expr → LetLang.Stmt)
    (ready : parser.Ready) :
    ((do
      let value ← expression fuel .lowest
      let _ ← Step.expectNext .semicolon
      pure (result value) : Step LetLang.Stmt) parser).Meets
      (fun value ended => ∃ (e : Expr) (semicolon : TokenOf [.semicolon]),
        result e.erase = value ∧ parser.Covers (e.tokens ++ [semicolon.token]) e.nesting ∧
          (ended.diagnostics = parser.diagnostics →
            e.WellFormed ∧
              parser.stream.tokens = (e.tokens ++ [semicolon.token]) ++ ended.behind))
      (fun _ _ => True) := by
  refine yields_bind (h.expression .lowest ready) ?_
  rintro value atValue extension ⟨e, rfl, _, covers, clean⟩
  refine meets_expectNext_bind (by decide) (fun semicolon behind => ?_)
  refine ⟨e, semicolon, rfl, ?_, fun same => ?_⟩
  · exact covers.concat (extension.mem_tokens (Parser.mem_of_behind behind))
  · obtain ⟨fills, _⟩ := clean same
    refine ⟨fills.wellFormed, ?_⟩
    rw [fills.tokens, behind]
    simp

theorem binding_sound (h : Sound fuel) (ready : parser.Ready) :
    (statementBy (fuel + 1) .binding parser).Meets
      (fun value ended => Stmt.IsSource parser ended value) (fun _ _ => True) := by
  simp only [statementBy]
  refine meets_expect_bind (by decide) (fun word atWord => ?_)
  refine meets_expect_bind (by decide) (fun name atName => ?_)
  refine meets_expect_bind (by decide) (fun sign atSign => ?_)
  have passed := (Parser.Extends.advance parser).trans (Parser.Extends.advance _)
  refine (terminated_sound h _ ready.advance.advance.advance).imp ?_
  rintro value ended ⟨e, semicolon, rfl, covers, clean⟩
  refine ⟨.binding word name sign e semicolon, rfl, ?_, fun same => ?_⟩
  · have signed := covers.of_extends (Parser.Extends.advance _) |>.cons
      (Parser.mem_of_tokens atSign)
    have named := signed.of_extends (Parser.Extends.advance _) |>.cons
      (Parser.mem_of_tokens atName)
    exact named.of_extends (Parser.Extends.advance _) |>.cons (Parser.mem_of_tokens atWord)
  · obtain ⟨wellFormed, tokens⟩ := clean same
    refine ⟨wellFormed, ?_, False.elim⟩
    rw [atWord, ← Parser.tokens_advance, atName, ← Parser.tokens_advance, atSign,
      ← Parser.tokens_advance, tokens]
    rfl

theorem returning_sound (h : Sound fuel) (ready : parser.Ready) :
    (statementBy (fuel + 1) .returning parser).Meets
      (fun value ended => Stmt.IsSource parser ended value) (fun _ _ => True) := by
  simp only [statementBy]
  refine meets_expect_bind (by decide) (fun word atWord => ?_)
  have mem := Parser.mem_of_tokens atWord
  have passed := Parser.Extends.advance parser
  simp only [current_bind]
  by_cases nothing : parser.advance.current.kind = .semicolon
  · have atEnd : parser.advance.stream.tokens =
        parser.advance.current :: parser.advance.behind :=
      Parser.tokens_of_current (by rw [nothing]; decide)
    simp only [nothing, if_true]
    refine ⟨.returningNothing word ⟨parser.advance.current, List.mem_singleton.mpr nothing⟩,
      rfl, ?_, fun _ => ⟨trivial, ?_, False.elim⟩⟩
    · exact ((Parser.Covers.nil ready).cons
        (passed.mem_tokens (Parser.mem_of_tokens atEnd))).cons mem
    · rw [atWord, ← Parser.tokens_advance, atEnd]
      rfl
  · simp only [nothing, if_false]
    refine (terminated_sound h _ ready.advance).imp ?_
    rintro value ended ⟨e, semicolon, rfl, covers, clean⟩
    refine ⟨.returning word e semicolon, rfl, (covers.of_extends passed).cons mem,
      fun same => ?_⟩
    obtain ⟨wellFormed, tokens⟩ := clean same
    refine ⟨wellFormed, ?_, False.elim⟩
    rw [atWord, ← Parser.tokens_advance, tokens]
    rfl

theorem expression_statement_sound (h : Sound fuel) (ready : parser.Ready) :
    (statementBy (fuel + 1) .expression parser).Meets
      (fun value ended => Stmt.IsSource parser ended value) (fun _ _ => True) := by
  simp only [statementBy, current_bind]
  refine yields_bind (h.expression .lowest ready) ?_
  rintro value atValue extension ⟨e, rfl, first, covers, clean⟩
  simp only [read_bind]
  by_cases terminated : atValue.next.kind = .semicolon
  · have behind : atValue.behind = atValue.next :: atValue.advance.behind :=
      Parser.behind_of_next (by rw [terminated]; decide)
    simp only [terminated, if_true, advance_bind]
    refine ⟨.expression e (some ⟨atValue.next, List.mem_singleton.mpr terminated⟩),
      by rw [← first]; rfl, ?_, fun same => ?_⟩
    · exact covers.concat (extension.mem_tokens (Parser.mem_of_behind behind))
    · obtain ⟨fills, _⟩ := clean same
      refine ⟨fills.wellFormed, ?_, False.elim⟩
      rw [fills.tokens, behind]
      simp [Stmt.tokens]
  · simp only [terminated, if_false]
    refine ⟨.expression e none, by rw [← first]; rfl, ?_, fun same => ?_⟩
    · simpa [Stmt.tokens, Stmt.nesting] using covers
    · obtain ⟨fills, closed⟩ := clean same
      exact ⟨fills.wellFormed, by simpa [Stmt.tokens] using fills.tokens, fun _ => closed⟩

theorem statementBy_sound (h : Sound fuel) (handler : StatementHandler) (ready : parser.Ready)
    (known : (Handlers.standard.statement parser.current.kind).getD .expression = handler) :
    (statementBy (fuel + 1) handler).Yields parser fun value ended =>
      Stmt.IsSource parser ended value := by
  refine ((onward_of_fuel _).statementBy handler).yields ?_
  cases handler with
  | binding =>
      exact binding_sound h ready
  | returning =>
      exact returning_sound h ready
  | expression =>
      exact expression_statement_sound h ready
  | block =>
      exact absurd known (statement_ne_block _)

theorem statement_sound (h : Sound fuel) (ready : parser.Ready) :
    (statement (fuel + 1)).Yields parser fun value ended =>
      Stmt.IsSource parser ended value := by
  refine (onward_of_fuel _).statement.yields ?_
  simp only [statement, current_bind, modify_bind, read_bind, Parser.handlers_note, ready.handlers]
  have noted : (parser.note (.statementBegun parser.current)).Ready := ⟨ready.handlers, ready.room⟩
  refine (h.statementBy _ noted rfl).imp ?_
  rintro value ended ⟨_, s, rfl, covers, clean⟩
  exact ⟨s, rfl, ⟨covers.tokens, covers.fits⟩, clean⟩

end Statements

section Blocks

variable {fuel : Nat} {parser : Parser}

theorem block_sound (h : Sound fuel) (ready : parser.Ready)
    (opens : parser.current.kind = .openBrace) :
    (block (fuel + 1)).Yields parser fun value ended => Block.IsSource parser ended value := by
  refine (onward_of_fuel _).block.yields ?_
  have here : parser.stream.tokens = parser.current :: parser.behind :=
    Parser.tokens_of_current (by rw [opens]; decide)
  simp only [block, take_bind]
  refine yields_bind (h.blockStatements [] ready.advance) ?_
  rintro values atEnd extension ⟨ends, all, rfl, covers, clean⟩
  simp only [current_bind]
  by_cases isEnd : atEnd.current.kind = .eof
  · simp only [isEnd, if_true]
    trivial
  · simp only [isEnd, if_false]
    have closes : atEnd.current.kind = .closeBrace := ends.resolve_right isEnd
    have there := Parser.tokens_of_current isEnd
    have passed := (Parser.Extends.advance parser).trans extension
    refine ⟨.mk ⟨parser.current, List.mem_singleton.mpr opens⟩ all
      ⟨atEnd.current, List.mem_singleton.mpr closes⟩, rfl, ?_, fun same => ?_⟩
    · exact ((covers.of_extends (Parser.Extends.advance parser)).concat
        (passed.mem_tokens (Parser.mem_of_tokens there))).cons (Parser.mem_of_tokens here)
    · obtain ⟨wellFormed, tokens⟩ := clean same
      refine ⟨wellFormed, ?_⟩
      rw [here, ← Parser.tokens_advance, tokens, there]
      simp [Block.tokens]

/-- A statement may stand before others that have been read. -/
theorem Stmt.IsSource.cons_areSource
    {begun atFirst ended : Parser} {found values : List LetLang.Stmt} {value : LetLang.Stmt}
    (first : Stmt.IsSource begun atFirst value)
    (toFirst : begun.Extends atFirst) (onward : atFirst.advance.Extends ended)
    (rest : Stmt.AreSource atFirst.advance ended (value :: found) values) :
    Stmt.AreSource begun ended found values := by
  obtain ⟨s, rfl, covers, clean⟩ := first
  obtain ⟨all, rfl, covers', clean'⟩ := rest
  have passed := toFirst.trans (Parser.Extends.advance atFirst)
  refine ⟨s :: all, by simp [Stmt.eraseAll], covers.append (covers'.of_extends passed),
    fun same => ?_⟩
  obtain ⟨before, after⟩ := passed.diagnostics_eq onward same
  obtain ⟨wellFormed, tokens, closed⟩ := clean before
  obtain ⟨wellFormed', tokens'⟩ := clean' after
  have behind : atFirst.behind = Stmt.tokensOf all ++ ended.stream.tokens := tokens'
  refine ⟨⟨wellFormed, ?_, wellFormed'⟩, ?_⟩
  · cases all with
    | nil =>
        trivial
    | cons next others =>
        intro isOpen isMinus
        obtain ⟨more, begins⟩ := next.exists_tokens_eq
        rw [Stmt.tokensOf, begins] at behind
        have weak := closed isOpen
        rw [Parser.next_of_behind behind, isMinus] at weak
        exact weak (by decide)
  · rw [tokens, behind, Stmt.tokensOf, List.append_assoc]

/-- Behind a statement that was recorded, something is recorded. -/
theorem Stmt.AreSource.of_record
    {begun failed late ended : Parser} {found values : List LetLang.Stmt}
    {diagnostic : Diagnostic}
    (toFailure : begun.Extends failed) (toLate : (failed.record diagnostic).Extends late)
    (onward : late.Extends ended)
    (rest : Stmt.AreSource late ended found values) :
    Stmt.AreSource begun ended found values := by
  obtain ⟨all, rfl, covers, clean⟩ := rest
  have passed := (toFailure.trans (Parser.Extends.record diagnostic failed)).trans toLate
  refine ⟨all, rfl, covers.of_extends passed, fun same => ?_⟩
  have less := toFailure.diagnostics.length_le
  have more := (toLate.trans onward).diagnostics.length_le
  rw [same] at more
  simp [Parser.record] at less more
  omega

theorem blockStatements_sound (h : Sound fuel) (found : List LetLang.Stmt)
    (ready : parser.Ready) :
    (blockStatements (fuel + 1) found).Yields parser fun values ended =>
      (ended.current.kind = .closeBrace ∨ ended.current.kind = .eof) ∧
        Stmt.AreSource parser ended found values := by
  refine ((onward_of_fuel _).blockStatements found).yields ?_
  simp only [blockStatements, current_bind]
  by_cases ends : parser.current.kind = .closeBrace ∨ parser.current.kind = .eof
  · simp only [ends, if_true]
    exact ⟨ends, [], by simp [Stmt.eraseAll], Parser.Covers.nil ready,
      fun _ => ⟨trivial, rfl⟩⟩
  · simp only [ends, if_false]
    refine yields_recovering_bind (onward_of_fuel fuel).statement (h.statement ready) ?_ ?_
    · intro value atFirst extension first
      have onward := extension.trans (Parser.Extends.advance atFirst)
      exact (h.blockStatements (value :: found) (ready.extends onward)).imp
        (fun _ _ rest => ⟨rest.2.1, first.cons_areSource extension rest.1 rest.2.2⟩)
    · intro diagnostic atFailure extension
      have recorded := extension.trans (Parser.Extends.record diagnostic atFailure)
      have skip (late : Parser) (toLate : (atFailure.record diagnostic).Extends late) :
          (blockStatements fuel found late).Meets
            (fun values ended =>
              (ended.current.kind = .closeBrace ∨ ended.current.kind = .eof) ∧
                Stmt.AreSource parser ended found values)
            (fun _ _ => True) :=
        (h.blockStatements found (ready.extends (recorded.trans toLate))).imp
          (fun _ _ rest => ⟨rest.2.1, rest.2.2.of_record extension toLate rest.1⟩)
      simp only [current_bind]
      split
      · exact skip _ (Parser.Extends.refl _)
      · exact skip _ (Parser.Extends.advance _)

end Blocks

/-- What the steps of the grammar end in was there, whatever their fuel. -/
theorem sound_of_fuel (fuel : Nat) :
    Sound fuel := by
  induction fuel with
  | zero =>
      exact
        { expression := fun _ _ _ => trivial
          operations := fun _ _ _ _ _ _ _ => trivial
          operation := fun _ _ _ _ => trivial
          operand := fun handler _ _ _ => by cases handler <;> trivial
          block := fun _ _ => trivial
          blockStatements := fun _ _ _ => trivial
          statement := fun _ => trivial
          statementBy := fun handler _ _ _ => by cases handler <;> trivial }
  | succ fuel h =>
      exact
        { expression := fun power _ => expression_sound h power
          operations := fun power left _ _ => operations_sound h power left
          operation := fun left _ => operation_sound h left
          operand := fun handler _ => operand_sound h handler
          block := block_sound h
          blockStatements := fun found _ => blockStatements_sound h found
          statement := statement_sound h
          statementBy := fun handler _ => statementBy_sound h handler }

/-- The statements of a program are those of concrete statements, and the end of the input is
reached. -/
theorem statements_sound {fuel : Nat} {found : List LetLang.Stmt} {parser : Parser}
    (ready : parser.Ready) :
    (statements fuel found).Yields parser fun values ended =>
      ended.current.kind = .eof ∧ Stmt.AreSource parser ended found values := by
  induction fuel generalizing found parser with
  | zero =>
      trivial
  | succ fuel ih =>
      refine (statements_onward _ found).yields ?_
      simp only [statements, current_bind]
      by_cases ends : parser.current.kind = .eof
      · simp only [ends, if_true]
        exact ⟨ends, [], by simp [Stmt.eraseAll], Parser.Covers.nil ready,
          fun _ => ⟨trivial, rfl⟩⟩
      · simp only [ends, if_false]
        refine yields_recovering_bind (onward_of_fuel fuel).statement
          ((sound_of_fuel fuel).statement ready) ?_ ?_
        · intro value atFirst extension first
          have onward := extension.trans (Parser.Extends.advance atFirst)
          exact (ih (ready.extends onward)).imp
            (fun _ _ rest => ⟨rest.2.1, first.cons_areSource extension rest.1 rest.2.2⟩)
        · intro diagnostic atFailure extension
          have toLate := Parser.Extends.advance (atFailure.record diagnostic)
          have recorded := extension.trans (Parser.Extends.record diagnostic atFailure)
          exact (ih (ready.extends (recorded.trans toLate))).imp
            (fun _ _ rest => ⟨rest.2.1, rest.2.2.of_record extension toLate rest.1⟩)

end Concrete
end LetLang
