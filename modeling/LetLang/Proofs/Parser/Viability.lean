import LetLang.Proofs.Concrete.Viable
import LetLang.Proofs.Parser.Mends
import LetLang.Proofs.Parser.Soundness

/-!
# No fault is found too early

Whatever a step of the grammar records first, the tokens before it are viable: there is a
well-formed tree of what the step reads that begins with them and fits into the levels that are
left.

**Proof.** By induction on the fuel, along the grammar.  A part of a step that has recorded nothing
comes from a concrete tree, whose tokens stand before those of the next part; a part that records
something is viable by induction, and so is the whole that it is a part of.  Statements and blocks
need a level for the expressions in them.  There is one: a program begins on the first, and a block
is read behind a condition for which there was one.
-/

namespace LetLang
namespace Concrete

open Step Grammar

/-- What has been read up to a parser may be the left operand of what comes next. -/
structure Expr.Precedes (left : Expr) (begun parser : Parser) : Prop where
  reaches : begun.Reaches left.tokens parser.advance
  wellFormed : left.WellFormed
  few : left.nesting ≤ begun.levels + 1
  weaker : parser.next.kind.power ≤ left.level

/-- What the steps of the grammar record first with a number of units of fuel can be mended. -/
structure Mending (fuel : Nat) : Prop where
  expression : ∀ power {parser : Parser}, parser.Ready →
    (expression fuel power parser).Mends parser
      (fun front => Expr.Viable parser.levels front (Expr.Binds power))
  operations : ∀ power (left : Expr) {begun parser : Parser}, begun.Ready →
    left.Precedes begun parser →
    (operations fuel power left.erase parser).Mends begun
      (fun front => Expr.Viable (begun.levels + 1) front (Expr.Binds power))
  operation : ∀ left {parser : Parser}, parser.Ready →
    parser.current.kind ∈ binaryOperators →
    (operation fuel .binary left parser.current.kind.power parser).Mends parser
      (fun front => ∃ right, front = parser.current :: right ∧
        Expr.Viable parser.levels right (Expr.Binds parser.current.kind.power))
  operand : ∀ handler {parser : Parser}, parser.Ready →
    Handlers.standard.operand parser.current.kind = some handler →
    (operand fuel handler parser).Mends parser
      (fun front => Expr.Viable (parser.levels + 1) front Expr.IsSingle)
  block : ∀ {parser : Parser}, parser.Ready → 0 < parser.levels →
    parser.current.kind = .openBrace →
    (block fuel parser).Mends parser (Block.Viable parser.levels)
  blockStatements : ∀ found {parser : Parser}, parser.Ready → 0 < parser.levels →
    (blockStatements fuel found parser).Mends parser (Stmt.AllViable parser.levels)
  statement : ∀ {parser : Parser}, parser.Ready → 0 < parser.levels →
    (statement fuel parser).Mends parser (Stmt.Viable parser.levels)
  statementBy : ∀ handler {parser : Parser}, parser.Ready → 0 < parser.levels →
    (Handlers.standard.statement parser.current.kind).getD .expression = handler →
    (statementBy fuel handler parser).Mends parser (Stmt.Viable parser.levels)

section Expressions

variable {fuel : Nat} {parser : Parser}

theorem operations_mends (h : Mending fuel) (power : Power) (left : Expr)
    {begun : Parser} (ready : begun.Ready) (precedes : left.Precedes begun parser) :
    (operations (fuel + 1) power left.erase parser).Mends begun
      (fun front => Expr.Viable (begun.levels + 1) front (Expr.Binds power)) := by
  obtain ⟨reaches, wellFormed, few, weaker⟩ := precedes
  have handlers : parser.handlers = .standard := (reaches.ready ready).handlers
  simp only [operations, read_bind]
  by_cases binds : power < parser.next.kind.power
  · have isOperator : parser.advance.current.kind ∈ binaryOperators := mem_binaryOperators binds
    simp only [binds, if_true, read_bind, handlers, operator_of_mem (mem_binaryOperators binds),
      advance_bind]
    refine mends_bind reaches (h.operation left.erase (reaches.ready ready) isOperator) ?_
      ((sound_of_fuel fuel).operation left.erase (reaches.ready ready) isOperator)
      ((onward_of_fuel fuel).operations power) ?_
    · rintro front - ⟨right, rfl, viable⟩
      rw [reaches.levels] at viable
      exact viable.operation ⟨parser.advance.current, isOperator⟩ wellFormed few weaker binds
    · rintro value ended extension clean ⟨right, rfl, covers, sound⟩
      obtain ⟨wellFormed', stronger, tokens, closed⟩ := sound clean
      have read : parser.advance.stream.tokens =
          (parser.advance.current :: right.tokens) ++ ended.behind := tokens
      have since := reaches.trans (extension.reaches clean read)
      let whole : Expr := .binary left ⟨parser.advance.current, isOperator⟩ right
      have few' := covers.fits.le_levels
      rw [reaches.levels] at few'
      refine h.operations power whole ready ⟨since, ⟨weaker, stronger, wellFormed, wellFormed'⟩, ?_,
        closed⟩
      simp only [whole, Expr.nesting]
      omega
  · simp only [binds, if_false]
    exact mends_pure reaches.clean

theorem operand_operations_mends (h : Mending fuel) (power : Power) (ready : parser.Ready)
    {handler : OperandHandler}
    (known : Handlers.standard.operand parser.current.kind = some handler) :
    ((operand fuel handler >>= operations fuel power) parser).Mends parser
      (fun front => Expr.Viable (parser.levels + 1) front (Expr.Binds power)) := by
  refine mends_bind (.refl parser) (h.operand handler ready known) ?_
    ((sound_of_fuel fuel).operand handler ready known) ((onward_of_fuel fuel).operations power) ?_
  · intro front _ viable
    exact viable.imp fun e single => single.binds power
  · rintro value ended extension clean ⟨left, rfl, _, notBinary, covers, sound⟩
    obtain ⟨wellFormed, tokens⟩ := sound clean
    refine h.operations power left ready ⟨extension.reaches clean tokens, wellFormed, ?_, ?_⟩
    · have := covers.fits.le_levels
      omega
    · rw [Expr.level_eq_unary notBinary]
      exact Power.le_of_lt (Kind.power_lt_unary _)

theorem expression_mends (h : Mending fuel) (power : Power) (ready : parser.Ready) :
    (expression (fuel + 1) power parser).Mends parser
      (fun front => Expr.Viable parser.levels front (Expr.Binds power)) := by
  simp only [expression, current_bind, modify_bind]
  refine mends_of_reaches (Parser.reaches_note _ parser) (mends_nested fun room => ?_)
    (fun _ _ viable => viable)
  have inside : Parser.Ready
      { parser.note (.expressionBegun parser.current) with depth := parser.depth + 1 } :=
    ⟨ready.handlers, room⟩
  have levels : Parser.levels
      { parser.note (.expressionBegun parser.current) with depth := parser.depth + 1 } + 1 =
        parser.levels := by
    have room : parser.depth < Parser.nestingLimit := room
    simp only [Parser.levels]
    omega
  simp only [read_bind]
  cases known : parser.handlers.operand parser.current.kind with
  | none =>
      simp only [Parser.handlers_note, known]
      exact mends_fail (.refl _) (Expr.viable_nil (by omega) False.elim)
  | some handler =>
      simp only [Parser.handlers_note, known]
      rw [← levels]
      exact operand_operations_mends h power inside (ready.handlers ▸ known)

theorem operation_mends (h : Mending fuel) (left : LetLang.Expr) (ready : parser.Ready)
    (isOperator : parser.current.kind ∈ binaryOperators) :
    (operation (fuel + 1) .binary left parser.current.kind.power parser).Mends parser
      (fun front => ∃ right, front = parser.current :: right ∧
        Expr.Viable parser.levels right (Expr.Binds parser.current.kind.power)) := by
  have here := Parser.tokens_of_current (ne_eof_of_mem isOperator)
  simp only [operation, take_bind]
  refine mends_bind ((Parser.Reaches.refl parser).advance here)
    (h.expression parser.current.kind.power ready.advance) ?_
    ((sound_of_fuel fuel).expression _ ready.advance) (fun _ => onward_pure _) ?_
  · intro front _ viable
    exact ⟨front, rfl, viable⟩
  · intro value ended _ clean _
    exact mends_pure clean

end Expressions

section Operands

variable {fuel : Nat} {begun parser : Parser} {passed : List Token}
variable {viable : List Token → Prop}

theorem unary_mends (h : Mending fuel) (ready : parser.Ready) (operator : TokenOf unaryOperators)
    (here : parser.stream.tokens = operator.token :: parser.behind) :
    (operand (fuel + 1) .unary parser).Mends parser
      (fun front => Expr.Viable (parser.levels + 1) front Expr.IsSingle) := by
  simp only [operand, take_bind]
  refine mends_bind ((Parser.Reaches.refl parser).advance here)
    (h.expression .unary ready.advance) ?_
    ((sound_of_fuel fuel).expression .unary ready.advance) (fun _ => onward_pure _) ?_
  · intro front _ right
    exact right.unary operator
  · intro value ended _ clean _
    exact mends_pure clean

theorem group_mends (h : Mending fuel) (ready : parser.Ready) (opening : TokenOf [.openParen])
    (here : parser.stream.tokens = opening.token :: parser.behind) :
    (operand (fuel + 1) .group parser).Mends parser
      (fun front => Expr.Viable (parser.levels + 1) front Expr.IsSingle) := by
  have opened := (Parser.Reaches.refl parser).advance here
  simp only [operand, advance_bind]
  refine mends_bind opened (h.expression .lowest ready.advance) ?_
    ((sound_of_fuel fuel).expression .lowest ready.advance)
    (fun _ => onward_bind (onward_expectNext _) (fun _ => onward_pure _)) ?_
  · intro front _ inner
    exact inner.group opening
  · rintro value ended extension clean ⟨inner, rfl, _, covers, sound⟩
    obtain ⟨fills, _⟩ := sound clean
    have since := opened.trans (extension.reaches clean fills.tokens)
    refine mends_expectNext_bind since (by decide) (fun _ => ?_) (fun closing _ closed => ?_)
    · exact (Expr.viable_tokens fills.wellFormed covers.fits.le_levels fills.binds).group opening
    · exact mends_pure clean

/-- The end of a conditional behind its first block, where a second one may be viable. -/
theorem alternative_mends (h : Mending fuel) (whole : Option LetLang.Block → LetLang.Expr)
    (ready : begun.Ready) (room : 0 < begun.levels) (reaches : begun.Reaches passed parser.advance)
    (inside : ∀ (otherwise : TokenOf [.elseWord]) (front : List Token),
      Block.Viable begun.levels front → viable (passed ++ otherwise.token :: front)) :
    (alternative (block fuel) whole parser).Mends begun viable := by
  simp only [alternative, read_bind]
  by_cases isElse : parser.next.kind = .elseWord
  · let otherwise : TokenOf [.elseWord] := ⟨parser.next, List.mem_singleton.mpr isElse⟩
    have here : parser.advance.stream.tokens = otherwise.token :: parser.advance.behind :=
      Parser.behind_of_next (by rw [isElse]; decide)
    have atElse := reaches.advance here
    simp only [isElse, if_true, advance_bind]
    refine mends_expectNext_bind atElse (by decide) (fun _ => ?_) (fun opening current _ => ?_)
    · exact inside otherwise [] Block.viable_nil
    · have atBrace : parser.advance.advance.current.kind = .openBrace := by
        rw [current, opening.kind_eq]
      have ready := atElse.ready ready
      rw [← atElse.levels] at room
      refine mends_bind atElse (h.block ready room atBrace) ?_
        ((sound_of_fuel fuel).block ready atBrace) (fun _ => onward_pure _) ?_
      · intro front _ second
        rw [atElse.levels] at second
        simpa using inside otherwise front second
      · intro second ended _ clean _
        exact mends_pure (clean.trans atElse.clean)
  · simp only [isElse, if_false]
    exact mends_pure reaches.clean

/-- The end of a conditional behind its condition, where the first block may be viable, or the
second one behind the first. -/
theorem branches_mends (h : Mending fuel) (token : Token) (condition : LetLang.Expr)
    (ready : begun.Ready) (room : 0 < begun.levels) (reaches : begun.Reaches passed parser.advance)
    (missing : viable passed)
    (first : ∀ (closing : TokenOf [.closeParen]) (front : List Token),
      Block.Viable begun.levels front → viable (passed ++ closing.token :: front))
    (second : ∀ (closing : TokenOf [.closeParen]) (b : Block) (otherwise : TokenOf [.elseWord])
      (front : List Token), b.WellFormed → b.nesting ≤ begun.levels →
      Block.Viable begun.levels front →
      viable (passed ++ closing.token :: (b.tokens ++ otherwise.token :: front))) :
    (branches (block fuel) token condition parser).Mends begun viable := by
  refine mends_expectNext_bind reaches (by decide) (fun _ => missing) (fun closing _ closed => ?_)
  refine mends_expectNext_bind closed (by decide) (fun _ => ?_) (fun opening current _ => ?_)
  · exact first closing [] Block.viable_nil
  · have atBrace : parser.advance.advance.current.kind = .openBrace := by
      rw [current, opening.kind_eq]
    have ready' := closed.ready ready
    refine mends_bind closed (h.block ready' (closed.levels.symm ▸ room) atBrace) ?_
      ((sound_of_fuel fuel).block ready' atBrace)
      (fun consequence => alternative_onward (onward_of_fuel fuel) _) ?_
    · intro front _ inside
      rw [closed.levels] at inside
      simpa using first closing front inside
    · rintro value followed extension clean ⟨b, rfl, covers, sound⟩
      obtain ⟨wellFormed, tokens⟩ := sound clean
      have few := covers.fits.le_levels
      rw [closed.levels] at few
      have since := closed.trans (extension.reaches clean tokens)
      refine alternative_mends h _ ready room since (fun otherwise front inside => ?_)
      simpa using second closing b otherwise front wellFormed few inside

theorem conditional_mends (h : Mending fuel) (ready : parser.Ready) (word : TokenOf [.ifWord])
    (here : parser.stream.tokens = word.token :: parser.behind) :
    (operand (fuel + 1) .conditional parser).Mends parser
      (fun front => Expr.Viable (parser.levels + 1) front Expr.IsSingle) := by
  have atWord := (Parser.Reaches.refl parser).advance here
  simp only [operand, current_bind]
  -- The parenthesis may be missing where there is no level left for a condition.
  refine mends_expectNext_bind atWord (by decide) (absurd rfl) (fun opening _ opened => ?_)
  simp only [advance_bind]
  have ready' := opened.ready ready
  refine mends_bind opened (h.expression .lowest ready') ?_
    ((sound_of_fuel fuel).expression .lowest ready') (branches_onward (onward_of_fuel fuel) _) ?_
  · intro front _ inside
    exact inside.condition word opening
  · rintro value tested extension clean ⟨test, rfl, _, covers, sound⟩
    obtain ⟨fills, _⟩ := sound clean
    have few : test.nesting ≤ parser.levels := covers.fits.le_levels
    have room : 0 < parser.levels := Nat.lt_of_lt_of_le test.nesting_pos few
    have since := opened.trans (extension.reaches clean fills.tokens)
    refine branches_mends h _ _ ready room since ?_ (fun closing front inside => ?_)
      (fun closing b otherwise front wellFormed fewFirst inside => ?_)
    · exact (Expr.viable_tokens fills.wellFormed few fills.binds).condition word opening
    · exact inside.consequence word opening closing fills.wellFormed few
    · exact inside.alternative word opening closing otherwise fills.wellFormed few wellFormed
        fewFirst

theorem operand_mends (h : Mending fuel) (handler : OperandHandler) (ready : parser.Ready)
    (known : Handlers.standard.operand parser.current.kind = some handler) :
    (operand (fuel + 1) handler parser).Mends parser
      (fun front => Expr.Viable (parser.levels + 1) front Expr.IsSingle) := by
  have mem := mem_kinds_of_operand known
  have here : parser.stream.tokens = parser.current :: parser.behind := by
    refine Parser.tokens_of_current ?_
    intro same
    rw [same] at known
    cases known
  -- A number that does not convert is mended by a name in its place.
  have other : Expr.Viable (parser.levels + 1) [] Expr.IsSingle :=
    Expr.viable_nil (Nat.succ_pos _) id
  cases handler with
  | identifier | boolean =>
      exact mends_pure rfl
  | integer =>
      simp only [operand, current_bind]
      cases Integer.parse parser.current.literal with
      | ok value =>
          exact mends_pure rfl
      | error fault =>
          exact mends_fail (.refl parser) other
  | float =>
      simp only [operand, current_bind]
      cases Binary64.ofLiteral? parser.current.literal with
      | some value =>
          exact mends_pure rfl
      | none =>
          exact mends_fail (.refl parser) other
  | unary =>
      exact unary_mends h ready ⟨parser.current, mem⟩ here
  | group =>
      exact group_mends h ready ⟨parser.current, mem⟩ here
  | conditional =>
      exact conditional_mends h ready ⟨parser.current, mem⟩ here

end Operands

section Statements

variable {fuel : Nat} {begun parser : Parser} {passed : List Token}
variable {viable : List Token → Prop}

/-- A value that a semicolon has to follow. -/
theorem terminated_mends (h : Mending fuel) (result : LetLang.Expr → LetLang.Stmt)
    (ready : begun.Ready) (reaches : begun.Reaches passed parser)
    (inside : ∀ front, Expr.Viable begun.levels front (Expr.Binds .lowest) →
      viable (passed ++ front)) :
    ((do
      let value ← expression fuel .lowest
      let _ ← Step.expectNext .semicolon
      pure (result value) : Step LetLang.Stmt) parser).Mends begun viable := by
  have ready' := reaches.ready ready
  refine mends_bind reaches (h.expression .lowest ready') ?_
    ((sound_of_fuel fuel).expression .lowest ready')
    (fun _ => onward_bind (onward_expectNext _) (fun _ => onward_pure _)) ?_
  · intro front _ value
    rw [reaches.levels] at value
    exact inside front value
  · rintro value ended extension clean ⟨e, rfl, _, covers, sound⟩
    obtain ⟨fills, _⟩ := sound clean
    have few := covers.fits.le_levels
    rw [reaches.levels] at few
    have since := reaches.trans (extension.reaches clean fills.tokens)
    refine mends_expectNext_bind since (by decide) (fun _ => ?_) (fun _ _ last => ?_)
    · exact inside e.tokens (Expr.viable_tokens fills.wellFormed few fills.binds)
    · exact mends_pure (clean.trans reaches.clean)

theorem binding_mends (h : Mending fuel) (ready : parser.Ready) (room : 0 < parser.levels) :
    (statementBy (fuel + 1) .binding parser).Mends parser (Stmt.Viable parser.levels) := by
  have nothing : Stmt.Viable parser.levels [] := (Expr.viable_nil room False.elim).statement
  simp only [statementBy]
  refine mends_expect_bind (.refl parser) (by decide) nothing (fun word atWord => ?_)
  refine mends_expect_bind atWord (by decide) (Stmt.viable_of_word word room)
    (fun name atName => ?_)
  refine mends_expect_bind atName (by decide) (Stmt.viable_of_name word name room)
    (fun sign atSign => ?_)
  exact terminated_mends h _ ready atSign (fun front value => value.binding word name sign)

theorem returning_mends (h : Mending fuel) (ready : parser.Ready) (room : 0 < parser.levels) :
    (statementBy (fuel + 1) .returning parser).Mends parser (Stmt.Viable parser.levels) := by
  have nothing : Stmt.Viable parser.levels [] := (Expr.viable_nil room False.elim).statement
  simp only [statementBy]
  refine mends_expect_bind (.refl parser) (by decide) nothing (fun word atWord => ?_)
  simp only [current_bind]
  split
  · exact mends_pure atWord.clean
  · exact terminated_mends h _ ready atWord (fun front value => value.returning word)

theorem expression_statement_mends (h : Mending fuel) (ready : parser.Ready) :
    (statementBy (fuel + 1) .expression parser).Mends parser (Stmt.Viable parser.levels) := by
  simp only [statementBy, current_bind]
  refine mends_bind (.refl parser) (h.expression .lowest ready) ?_
    ((sound_of_fuel fuel).expression .lowest ready)
    (fun _ => onward_bind (onward_read _) (fun _ => onward_ite
      (onward_bind onward_advance (fun _ => onward_pure _)) (onward_pure _))) ?_
  · intro front _ value
    exact value.statement
  · intro value ended _ clean _
    simp only [read_bind]
    split
    · exact mends_pure clean
    · exact mends_pure clean

theorem statementBy_mends (h : Mending fuel) (handler : StatementHandler) (ready : parser.Ready)
    (room : 0 < parser.levels)
    (known : (Handlers.standard.statement parser.current.kind).getD .expression = handler) :
    (statementBy (fuel + 1) handler parser).Mends parser (Stmt.Viable parser.levels) := by
  cases handler with
  | binding =>
      exact binding_mends h ready room
  | returning =>
      exact returning_mends h ready room
  | expression =>
      exact expression_statement_mends h ready
  | block =>
      exact absurd known (statement_ne_block _)

theorem statement_mends (h : Mending fuel) (ready : parser.Ready) (room : 0 < parser.levels) :
    (statement (fuel + 1) parser).Mends parser (Stmt.Viable parser.levels) := by
  simp only [statement, current_bind, modify_bind, read_bind, Parser.handlers_note, ready.handlers]
  have noted : (parser.note (.statementBegun parser.current)).Ready := ⟨ready.handlers, ready.room⟩
  exact mends_of_reaches (Parser.reaches_note _ parser) (h.statementBy _ noted room rfl)
    (fun _ _ viable => viable)

end Statements

section Blocks

variable {fuel : Nat} {parser : Parser}

theorem block_mends (h : Mending fuel) (ready : parser.Ready) (room : 0 < parser.levels)
    (opens : parser.current.kind = .openBrace) :
    (block (fuel + 1) parser).Mends parser (Block.Viable parser.levels) := by
  let opening : TokenOf [.openBrace] := ⟨parser.current, List.mem_singleton.mpr opens⟩
  have here : parser.stream.tokens = opening.token :: parser.behind :=
    Parser.tokens_of_current (by rw [opens]; decide)
  have opened := (Parser.Reaches.refl parser).advance here
  simp only [block, take_bind]
  refine mends_bind opened (h.blockStatements [] ready.advance room) ?_
    ((sound_of_fuel fuel).blockStatements [] ready.advance)
    (fun _ => onward_bind (onward_read _)
      (fun _ => onward_ite (onward_fail _ _) (onward_pure _))) ?_
  · rintro front - ⟨all, completes, wellFormed, few, _⟩
    exact Block.viable_of_completes opening completes wellFormed few
  · rintro values atEnd extension clean ⟨_, all, _, covers, sound⟩
    obtain ⟨wellFormed, tokens⟩ := sound clean
    simp only [current_bind]
    split
    · have since := opened.trans ⟨tokens, extension, clean⟩
      refine mends_fail since ?_
      exact Block.viable_of_completes opening (.refl _) wellFormed covers.fits.le_levels
    · exact mends_pure clean

/-- Some statements are viable up to something in the first of them, or behind it. -/
theorem recovered_mends
    {next : Option LetLang.Stmt → Step (List LetLang.Stmt)} (h : Mending fuel)
    (ready : parser.Ready) (room : 0 < parser.levels) (onward : ∀ read, (next read).Onward)
    (rest : ∀ read ended, ended.Ready → 0 < ended.levels →
      (next (some read) ended).Mends ended.advance (Stmt.AllViable ended.levels)) :
    ((recovering (statement fuel) >>= next) parser).Mends parser
      (Stmt.AllViable parser.levels) := by
  refine mends_bind (.refl parser) (mends_recovering (h.statement ready room)) ?_
    (recovering_yields (onward_of_fuel fuel).statement ((sound_of_fuel fuel).statement ready))
    onward ?_
  · intro front _ first
    exact first.all
  · intro read ended extension clean sound
    obtain ⟨value, rfl, s, rfl, covers, sound⟩ := sound clean
    obtain ⟨wellFormed, tokens, closed⟩ := sound clean
    have since := extension.reaches clean tokens
    have levels : ended.levels = parser.levels := since.levels
    have behind := rest s.erase ended (ready.extends extension) (levels.symm ▸ room)
    refine mends_of_reaches since behind (fun front isPrefix viable => ?_)
    rw [levels] at viable
    refine viable.cons wellFormed covers.fits.le_levels (fun isOpen token first => ?_)
    -- The loop over operators has ended before the token behind the statement.
    have next : token = ended.next := by
      rw [Parser.ahead_eq_cons] at isPrefix
      cases front with
      | nil =>
          cases first
      | cons head others =>
          cases first
          exact (List.cons_prefix_cons.mp isPrefix).1
    intro minus
    refine closed isOpen ?_
    rw [← next, minus]
    decide

theorem blockStatements_mends (h : Mending fuel) (found : List LetLang.Stmt) (ready : parser.Ready)
    (room : 0 < parser.levels) :
    (blockStatements (fuel + 1) found parser).Mends parser (Stmt.AllViable parser.levels) := by
  simp only [blockStatements, current_bind]
  split
  · exact mends_pure rfl
  · refine recovered_mends h ready room
      (blockStatements_resume_onward (onward_of_fuel fuel) found) ?_
    intro read ended ready room
    exact h.blockStatements (read :: found) ready.advance room

end Blocks

/-- What the steps of the grammar record first can be mended, whatever their fuel. -/
theorem mending_of_fuel (fuel : Nat) :
    Mending fuel := by
  induction fuel with
  | zero =>
      exact
        { expression := fun _ _ _ => trivial
          operations := fun _ _ _ _ _ _ => trivial
          operation := fun _ _ _ _ => trivial
          operand := fun handler _ _ _ => by cases handler <;> trivial
          block := fun _ _ _ => trivial
          blockStatements := fun _ _ _ _ => trivial
          statement := fun _ _ => trivial
          statementBy := fun handler _ _ _ _ => by cases handler <;> trivial }
  | succ fuel h =>
      exact
        { expression := fun power _ => expression_mends h power
          operations := fun power left _ _ => operations_mends h power left
          operation := fun left _ => operation_mends h left
          operand := fun handler _ => operand_mends h handler
          block := block_mends h
          blockStatements := fun found _ => blockStatements_mends h found
          statement := statement_mends h
          statementBy := fun handler _ => statementBy_mends h handler }

/-- What is recorded first while the statements of a program are read can be mended. -/
theorem statements_mends {fuel : Nat} {found : List LetLang.Stmt} {parser : Parser}
    (ready : parser.Ready) (room : 0 < parser.levels) :
    (statements fuel found parser).Mends parser (Stmt.AllViable parser.levels) := by
  induction fuel generalizing found parser with
  | zero =>
      trivial
  | succ fuel ih =>
      simp only [statements, current_bind]
      split
      · exact mends_pure rfl
      · refine recovered_mends (mending_of_fuel fuel) ready room
          (fun _ => onward_bind onward_advance (fun _ => statements_onward fuel _)) ?_
        intro read ended ready room
        exact ih ready.advance room

end Concrete
end LetLang
