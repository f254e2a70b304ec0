import LetLang.Proofs.Parser.Completeness

/-!
# A statement without its semicolon

In a block, a binding or a return whose value is directly followed by the closing brace fails there.
The failed statement leaves the parser at the last token of the value.  If this is itself a closing
brace, that of a block inside the value, the loop over the statements of the block takes it for its
own, and what ends the block in truth is left behind it.

**Input.** A parser before such a statement, or before a conditional whose only block holds it.

**Result.** `Concrete.statements_unterminated`: which diagnostics are recorded, which syntax tree
is made, and which tokens are left.
-/

namespace LetLang

namespace Parser

/-- A parser has gone on from another one with some more diagnostics, and is otherwise as it was
but for its place. -/
structure Adds (begun ended : Parser) (recorded : List Diagnostic) : Prop where
  handlers : ended.handlers = begun.handlers
  depth : ended.depth = begun.depth
  diagnostics : ended.diagnostics.toList = begun.diagnostics.toList ++ recorded

variable {begun middle ended : Parser} {recorded more : List Diagnostic}

theorem Keeps.adds (h : begun.Keeps ended) :
    begun.Adds ended [] :=
  ⟨h.handlers, h.depth, by rw [h.diagnostics, List.append_nil]⟩

theorem Adds.trans (early : begun.Adds middle recorded) (late : middle.Adds ended more) :
    begun.Adds ended (recorded ++ more) :=
  ⟨late.handlers.trans early.handlers, late.depth.trans early.depth, by
    rw [late.diagnostics, early.diagnostics, List.append_assoc]⟩

theorem Adds.advance (h : begun.Adds ended recorded) :
    begun.Adds ended.advance recorded :=
  ⟨h.handlers, h.depth, h.diagnostics⟩

theorem Adds.record (parser : Parser) (diagnostic : Diagnostic) :
    parser.Adds (parser.record diagnostic) [diagnostic] :=
  ⟨rfl, rfl, by simp [Parser.record]⟩

/-- A parser stands at the token before what is behind it. -/
theorem Extends.tokens_of_behind
    {front rest : List Token} {last : Token}
    (h : begun.Extends ended) (tokens : begun.stream.tokens = front ++ last :: rest)
    (behind : ended.behind = rest) (more : rest ≠ []) :
    ended.stream.tokens = last :: rest := by
  cases left : ended.stream.tokens with
  | nil =>
      simp [Parser.behind, left] at behind
      exact absurd behind more
  | cons token others =>
      obtain rfl : others = rest := by
        rw [← behind, behind_of_tokens left]
      obtain ⟨passed, whole⟩ := h.tokens
      rw [left, tokens, List.append_cons, List.append_cons front] at whole
      have same := List.append_cancel_right whole
      have ends := congrArg List.getLast? same
      simp only [List.getLast?_append, List.getLast?_singleton, Option.some_or,
        Option.some.injEq] at ends
      rw [ends]

end Parser

/-- Where the levels are left that a text needs, it is read. -/
theorem Outcome.Reads.meets
    {α : Type} {outcome : Outcome α} {begun : Parser} {expected : α} {rest : List Token}
    {levels : Nat} (h : outcome.Reads begun expected rest levels) (fits : begun.Fits levels) :
    outcome.Meets
      (fun value ended => value = expected ∧ ended.behind = rest ∧ begun.Keeps ended)
      (fun _ _ => False) := by
  refine Meets.mono h ?_ ?_
  · rintro value ended (⟨_, read⟩ | ⟨full, _⟩)
    · exact read
    · exact absurd fits full
  · rintro diagnostic ended ⟨full, _⟩
    exact full fits

namespace Concrete

open Step Grammar

/-- The beginning of a statement that must end in a semicolon, up to its value. -/
inductive Head
  | binding
      (word : TokenOf [.letWord]) (name : TokenOf [.identifier]) (sign : TokenOf [.assign])
  | returning (word : TokenOf [.returnWord])

/-- The tokens of such a beginning, in order. -/
def Head.tokens : Head → List Token
  | .binding word name sign => [word.token, name.token, sign.token]
  | .returning word => [word.token]

/-- The way to read a statement that begins so. -/
def Head.handler : Head → StatementHandler
  | .binding _ _ _ => .binding
  | .returning _ => .returning

/-- The diagnostic of a value that a closing brace stands behind. -/
def missingSemicolon (brace : TokenOf [.closeBrace]) : Diagnostic :=
  ⟨.unexpectedToken .semicolon .closeBrace, brace.token.start⟩

/-- A step fails for want of a semicolon, at the last token before a closing brace. -/
def LacksSemicolon {α : Type} (outcome : Outcome α) (begun : Parser) (last : Token)
    (brace : TokenOf [.closeBrace]) (rest : List Token) : Prop :=
  outcome.Meets (fun _ _ => False)
    (fun diagnostic ended => diagnostic = missingSemicolon brace ∧
      ended.stream.tokens = last :: brace.token :: rest ∧ begun.Keeps ended)

/-- A step may have begun earlier, where nothing but the place in the tokens was changed since. -/
theorem LacksSemicolon.ofKeeps
    {α : Type} {outcome : Outcome α} {begun late : Parser} {last : Token}
    {brace : TokenOf [.closeBrace]} {rest : List Token}
    (h : LacksSemicolon outcome late last brace rest) (keeps : begun.Keeps late) :
    LacksSemicolon outcome begun last brace rest :=
  Outcome.Meets.mono h (fun _ _ none => none)
    (fun _ _ fails => ⟨fails.1, fails.2.1, keeps.trans fails.2.2⟩)

section Statement

variable {head : Head} {value : Expr} {front rest : List Token} {last : Token}
variable {brace : TokenOf [.closeBrace]} {fuel : Nat} {parser : Parser}

/-- A value is read, but its semicolon is missing. -/
theorem Expr.Parses.unterminated
    (h : value.Parses) (whole : value.tokens = front ++ [last])
    (result : LetLang.Expr → LetLang.Stmt)
    (before : parser.Before value.tokens (brace.token :: rest)) (fits : parser.Fits value.nesting) :
    LacksSemicolon
      ((do
        let value ← Grammar.expression fuel .lowest
        let _ ← Step.expectNext .semicolon
        pure (result value) : Step LetLang.Stmt) parser)
      parser last brace rest := by
  have closes : Closes .lowest (brace.token :: rest) :=
    closes_token brace (by decide) (by decide)
  have read := (h fuel .lowest _ parser before (fun _ => value.lowest_lt_level) closes).meets fits
  refine meets_bind (read.and ((onward_of_fuel fuel).expression .lowest parser)) ?_
    (fun _ _ both => both.1.elim)
  rintro _ ended ⟨⟨rfl, behind, keeps⟩, extension⟩
  have next : ended.next = brace.token := Parser.next_of_behind behind
  have here : parser.stream.tokens = front ++ last :: brace.token :: rest := by
    rw [before.tokens, whole, List.append_assoc]
    rfl
  rw [expectNext_bind_of_ne (by rw [next, brace.kind_eq]; decide), next, brace.kind_eq]
  exact ⟨rfl, extension.tokens_of_behind here behind (List.cons_ne_nil _ _), keeps⟩

/-- The handler of a statement without its semicolon fails at the last token of the value. -/
theorem Head.statementBy_unterminated
    (h : value.Parses) (whole : value.tokens = front ++ [last])
    (before : parser.Before (head.tokens ++ value.tokens) (brace.token :: rest))
    (fits : parser.Fits value.nesting) :
    LacksSemicolon (statementBy fuel head.handler parser) parser last brace rest := by
  cases fuel with
  | zero =>
      cases head <;> trivial
  | succ fuel =>
      cases head with
      | binding word name sign =>
          have before : parser.Before (word.token :: name.token :: sign.token :: value.tokens)
              (brace.token :: rest) := before
          simp only [Head.handler, statementBy]
          rw [expect_bind_of_kind (by rw [before.current, word.kind_eq]),
            expect_bind_of_kind (by rw [before.advance.current, name.kind_eq]),
            expect_bind_of_kind (by rw [before.advance.advance.current, sign.kind_eq])]
          exact (h.unterminated whole _ before.advance.advance.advance fits).ofKeeps
            (Parser.Keeps.refl parser).advance.advance.advance
      | returning word =>
          have before : parser.Before (word.token :: value.tokens) (brace.token :: rest) := before
          have notSemicolon : parser.advance.current.kind ≠ .semicolon := by
            rw [Expr.current_of_before before.advance]
            intro same
            have first := (mem_beginnings_of_operand value.operand_first).1
            rw [same] at first
            exact absurd first (by decide)
          simp only [Head.handler, statementBy]
          rw [expect_bind_of_kind (by rw [before.current, word.kind_eq])]
          simp only [current_bind, notSemicolon, if_false]
          exact (h.unterminated whole _ before.advance fits).ofKeeps
            (Parser.Keeps.refl parser).advance

theorem Head.current_of_before
    {more : List Token} (before : parser.Before (head.tokens ++ more) rest) :
    parser.current.kind ∈ beginnings ∧
      (Handlers.standard.statement parser.current.kind).getD .expression = head.handler := by
  cases head with
  | binding word name sign =>
      rw [show parser.current = word.token from before.current, word.kind_eq]
      exact ⟨by decide, rfl⟩
  | returning word =>
      rw [show parser.current = word.token from before.current, word.kind_eq]
      exact ⟨by decide, rfl⟩

/-- A statement without its semicolon fails at the last token of its value. -/
theorem Head.statement_unterminated
    (h : value.Parses) (whole : value.tokens = front ++ [last])
    (before : parser.Before (head.tokens ++ value.tokens) (brace.token :: rest))
    (fits : parser.Fits value.nesting) :
    LacksSemicolon (statement fuel parser) parser last brace rest := by
  cases fuel with
  | zero =>
      trivial
  | succ fuel =>
      simp only [statement, current_bind, modify_bind, read_bind, Parser.handlers_note,
        before.handlers, (Head.current_of_before before).2]
      have noted : (parser.note (.statementBegun parser.current)).Before
          (head.tokens ++ value.tokens) (brace.token :: rest) :=
        ⟨before.handlers, before.tokens, before.room⟩
      exact (Head.statementBy_unterminated h whole noted fits).ofKeeps ⟨rfl, rfl, rfl, rfl⟩

end Statement

section Block

variable {head : Head} {value : Expr} {front rest : List Token} {last : Token}
variable {brace : TokenOf [.closeBrace]} {fuel : Nat} {parser : Parser}

/-- The closing brace that the loop over the statements of a block stops at, behind a value that was
not followed by a semicolon. -/
def closer (last : Token) (brace : TokenOf [.closeBrace]) : Token :=
  if last.kind = .closeBrace then last else brace.token

/-- The tokens that are left behind this brace. -/
def remainder (last : Token) (brace : TokenOf [.closeBrace]) (rest : List Token) : List Token :=
  if last.kind = .closeBrace then brace.token :: rest else rest

/-- The missing semicolon is recorded, and the parser stands at the brace that the loop has stopped
at. -/
structure Resumes (begun ended : Parser) (last : Token) (brace : TokenOf [.closeBrace])
    (rest : List Token) : Prop where
  tokens : ended.stream.tokens = closer last brace :: remainder last brace rest
  adds : begun.Adds ended [missingSemicolon brace]

/-- A step may have begun earlier, where nothing but the place in the tokens was changed since. -/
theorem Resumes.ofKeeps
    {begun late ended : Parser}
    (h : Resumes late ended last brace rest) (keeps : begun.Keeps late) :
    Resumes begun ended last brace rest :=
  ⟨h.tokens, keeps.adds.trans h.adds⟩

theorem kind_closer : (closer last brace).kind = .closeBrace := by
  unfold closer
  split
  · assumption
  · exact brace.kind_eq

theorem closes_remainder (closes : Closes .lowest rest) :
    Closes .lowest (remainder last brace rest) := by
  unfold remainder
  split
  · exact closes_token brace (by decide) (by decide)
  · exact closes

/-- The statement is recorded and left out. -/
theorem Head.blockStatements_unterminated
    (h : value.Parses) (whole : value.tokens = front ++ [last])
    (before : parser.Before (head.tokens ++ value.tokens) (brace.token :: rest))
    (fits : parser.Fits value.nesting) :
    (blockStatements fuel [] parser).Meets
      (fun all ended => all = [] ∧ Resumes parser ended last brace rest)
      (fun _ _ => False) := by
  cases fuel with
  | zero =>
      trivial
  | succ fuel =>
      obtain ⟨notBrace, notEnd⟩ := ne_end_of_beginning (Head.current_of_before before).1
      simp only [blockStatements, current_bind, notBrace, notEnd, or_self, if_false]
      have recovers : (recovering (statement fuel) parser).Meets
          (fun read ended => read = none ∧ ended.stream.tokens = last :: brace.token :: rest ∧
            parser.Adds ended [missingSemicolon brace])
          (fun _ _ => False) := by
        refine meets_recovering
          ((Head.statement_unterminated h whole before fits).mono (fun _ _ none => none.elim) ?_)
        rintro _ ended ⟨rfl, tokens, keeps⟩
        exact ⟨rfl, tokens, keeps.adds.trans (Parser.Adds.record _ _)⟩
      refine meets_bind recovers ?_ (fun _ _ none => none)
      rintro _ stopped ⟨rfl, tokens, adds⟩
      simp only [current_bind, Parser.current_of_tokens tokens]
      -- The loop goes by the kind of the token at hand, whichever block that closes.
      by_cases nested : last.kind = .closeBrace
      · simp only [nested, if_true]
        refine (blockStatements_of_last _ [] (.inl ?_)).mono ?_ (fun _ _ none => none)
        · rw [Parser.current_of_tokens tokens, nested]
        · rintro _ _ ⟨rfl, rfl⟩
          exact ⟨rfl, by simpa [closer, remainder, nested] using tokens, adds⟩
      · simp only [nested, if_false, advance_bind]
        have behind := Parser.behind_of_tokens tokens
        refine (blockStatements_of_last _ [] (.inl ?_)).mono ?_ (fun _ _ none => none)
        · rw [Parser.current_advance_of_behind behind, brace.kind_eq]
        · rintro _ _ ⟨rfl, rfl⟩
          exact ⟨rfl, by simpa [closer, remainder, nested] using behind, adds.advance⟩

/-- The block ends at the brace that the loop has stopped at, and has no statements. -/
theorem Head.block_unterminated
    (h : value.Parses) (whole : value.tokens = front ++ [last])
    (opening : TokenOf [.openBrace])
    (before : parser.Before (opening.token :: (head.tokens ++ value.tokens)) (brace.token :: rest))
    (fits : parser.Fits value.nesting) :
    (block fuel parser).Meets
      (fun read ended =>
        read = .mk opening.token ⟨opening.token.start, (closer last brace).stop⟩ [] ∧
          Resumes parser ended last brace rest)
      (fun _ _ => False) := by
  cases fuel with
  | zero =>
      trivial
  | succ fuel =>
      simp only [Grammar.block, take_bind, before.current]
      refine meets_bind (Head.blockStatements_unterminated h whole before.advance fits) ?_
        (fun _ _ none => none)
      rintro _ ended ⟨rfl, resumes⟩
      have current := Parser.current_of_tokens resumes.tokens
      have notEnd : (closer last brace).kind ≠ .eof := by
        rw [kind_closer]
        decide
      simp only [current_bind, current, notEnd, if_false]
      exact ⟨rfl, resumes.ofKeeps (Parser.Keeps.refl parser).advance⟩

end Block

section Conditional

variable {head : Head} {condition value : Expr} {front rest : List Token} {last : Token}
variable {word : TokenOf [.ifWord]} {opening : TokenOf [.openParen]}
variable {closing : TokenOf [.closeParen]} {first : TokenOf [.openBrace]}
variable {brace : TokenOf [.closeBrace]} {fuel : Nat} {parser : Parser}

/-- The tokens of a conditional up to the closing brace of its block, which holds one statement
without its semicolon. -/
def tokensBefore (word : TokenOf [.ifWord]) (opening : TokenOf [.openParen]) (condition : Expr)
    (closing : TokenOf [.closeParen]) (first : TokenOf [.openBrace]) (head : Head) (value : Expr) :
    List Token :=
  word.token :: opening.token ::
    (condition.tokens ++ closing.token :: first.token :: (head.tokens ++ value.tokens))

/-- The syntax tree of the conditional, whose block is empty. -/
def conditionalLeft (word : TokenOf [.ifWord]) (condition : Expr) (first : TokenOf [.openBrace])
    (last : Token) (brace : TokenOf [.closeBrace]) : LetLang.Expr :=
  .conditional word.token condition.erase
    (.mk first.token ⟨first.token.start, (closer last brace).stop⟩ []) none

theorem branches_unterminated
    (h : value.Parses) (whole : value.tokens = front ++ [last]) (closes : Closes .lowest rest)
    (before : parser.advance.Before
      (closing.token :: first.token :: (head.tokens ++ value.tokens)) (brace.token :: rest))
    (fits : parser.Fits value.nesting) :
    (branches (block fuel) word.token condition.erase parser).Meets
      (fun read ended => read = conditionalLeft word condition first last brace ∧
        Resumes parser ended last brace rest)
      (fun _ _ => False) := by
  have isClosing : parser.next.kind = .closeParen := by
    rw [show parser.next = closing.token from before.current, closing.kind_eq]
  have isBrace : parser.advance.next.kind = .openBrace := by
    rw [show parser.advance.next = first.token from before.advance.current, first.kind_eq]
  simp only [Grammar.branches]
  rw [expectNext_bind_of_kind isClosing, expectNext_bind_of_kind isBrace]
  refine meets_bind (Head.block_unterminated h whole first before.advance fits) ?_
    (fun _ _ none => none)
  rintro _ ended ⟨rfl, resumes⟩
  have behind : ended.behind = remainder last brace rest := Parser.behind_of_tokens resumes.tokens
  have closed : Closes .lowest ended.behind := behind ▸ closes_remainder closes
  simp only [alternative, read_bind, closed.next_ne_elseWord, if_false]
  exact ⟨rfl, resumes.ofKeeps (Parser.Keeps.refl parser).advance.advance⟩

theorem operand_unterminated
    (onCondition : condition.Parses) (h : value.Parses) (whole : value.tokens = front ++ [last])
    (closes : Closes .lowest rest)
    (before : parser.Before (tokensBefore word opening condition closing first head value)
      (brace.token :: rest))
    (fits : parser.Fits (max condition.nesting value.nesting)) :
    (operand fuel .conditional parser).Meets
      (fun read ended => read = conditionalLeft word condition first last brace ∧
        Resumes parser ended last brace rest)
      (fun _ _ => False) := by
  cases fuel with
  | zero =>
      trivial
  | succ fuel =>
      have isOpening : parser.next.kind = .openParen := by
        rw [show parser.next = opening.token from before.advance.current, opening.kind_eq]
      have closed : Closes .lowest (closing.token :: first.token ::
          (head.tokens ++ value.tokens) ++ brace.token :: rest) :=
        closes_token closing (by decide) (by decide)
      have inside : parser.Fits condition.nesting ∧ parser.Fits value.nesting := by
        unfold Parser.Fits at *
        omega
      simp only [operand, current_bind, before.current]
      rw [expectNext_bind_of_kind isOpening, advance_bind]
      refine meets_bind ((onCondition fuel .lowest _ _ before.advance.advance.append
        (fun _ => condition.lowest_lt_level) closed).meets inside.1) ?_ (fun _ _ none => none)
      rintro _ atCondition ⟨rfl, behind, keeps⟩
      have since : parser.Keeps atCondition :=
        (Parser.Keeps.refl parser).advance.advance.trans keeps
      refine (branches_unterminated h whole closes (before.resume since behind)
        (since.fits.mpr inside.2)).mono ?_ (fun _ _ none => none)
      rintro _ ended ⟨rfl, resumes⟩
      exact ⟨rfl, resumes.ofKeeps since⟩

theorem expression_unterminated
    (onCondition : condition.Parses) (h : value.Parses) (whole : value.tokens = front ++ [last])
    (closes : Closes .lowest rest)
    (before : parser.Before (tokensBefore word opening condition closing first head value)
      (brace.token :: rest))
    (fits : parser.Fits (1 + max condition.nesting value.nesting)) :
    (expression fuel .lowest parser).Meets
      (fun read ended => read = conditionalLeft word condition first last brace ∧
        Resumes parser ended last brace rest)
      (fun _ _ => False) := by
  cases fuel with
  | zero =>
      trivial
  | succ fuel =>
      have handler : parser.handlers.operand parser.current.kind = some .conditional := by
        rw [before.handlers, show parser.current = word.token from before.current, word.kind_eq]
        rfl
      simp only [expression, current_bind, modify_bind]
      refine meets_nested (fun room => ?_) (fun full => ?_)
      · simp only [read_bind, Parser.note, handler]
        refine meets_bind (operand_unterminated onCondition h whole closes
          ⟨before.handlers, before.tokens, room⟩ ?_) ?_ (fun _ _ none => none)
        · simp only [Parser.Fits] at *
          omega
        · rintro _ ended ⟨rfl, resumes⟩
          have behind : ended.behind = remainder last brace rest :=
            Parser.behind_of_tokens resumes.tokens
          have closed : Closes .lowest ended.behind := behind ▸ closes_remainder closes
          have left : Resumes parser ended.leave last brace rest :=
            ⟨resumes.tokens, resumes.adds.handlers,
              by simp [Parser.leave, resumes.adds.depth], resumes.adds.diagnostics⟩
          cases fuel with
          | zero =>
              trivial
          | succ fuel =>
              simp only [operations, read_bind, closed.not_lt_next, if_false]
              exact ⟨rfl, left⟩
      · have full : Parser.nestingLimit ≤ parser.depth := full
        unfold Parser.Fits at fits
        omega

end Conditional

section Program

variable {head : Head} {condition value : Expr} {front rest : List Token} {last : Token}
variable {word : TokenOf [.ifWord]} {opening : TokenOf [.openParen]}
variable {closing : TokenOf [.closeParen]} {first : TokenOf [.openBrace]}
variable {brace : TokenOf [.closeBrace]} {semicolon : TokenOf [.semicolon]}
variable {fuel : Nat} {parser : Parser}

/-- The brace that should have closed the block and the semicolon, where the block was closed too
early. -/
def unread (last : Token) (brace : TokenOf [.closeBrace]) (semicolon : TokenOf [.semicolon]) :
    List Token :=
  if last.kind = .closeBrace then [brace.token, semicolon.token] else []

/-- The conditional is a statement, with the semicolon behind it if the block was not closed too
early. -/
theorem statement_unterminated
    (onCondition : condition.Parses) (h : value.Parses) (whole : value.tokens = front ++ [last])
    (before : parser.Before (tokensBefore word opening condition closing first head value)
      [brace.token, semicolon.token])
    (fits : parser.Fits (1 + max condition.nesting value.nesting)) :
    (statement fuel parser).Meets
      (fun read ended =>
        read = .expression word.token (conditionalLeft word condition first last brace) ∧
          ended.behind = unread last brace semicolon ∧
            parser.Adds ended [missingSemicolon brace])
      (fun _ _ => False) := by
  have closes : Closes .lowest [semicolon.token] := closes_token semicolon (by decide) (by decide)
  have current : parser.current = word.token := before.current
  have handler : (Handlers.standard.statement parser.current.kind).getD .expression =
      .expression := by
    rw [current, word.kind_eq]
    rfl
  rcases fuel with _ | _ | fuel
  · trivial
  · simp only [statement, current_bind, modify_bind, read_bind, Parser.handlers_note,
      before.handlers, handler]
    trivial
  · simp only [statement, current_bind, modify_bind, read_bind, Parser.handlers_note,
      before.handlers, handler]
    simp only [statementBy, current_bind]
    have noted : (parser.note (.statementBegun parser.current)).Before
        (tokensBefore word opening condition closing first head value)
          [brace.token, semicolon.token] :=
      ⟨before.handlers, before.tokens, before.room⟩
    refine meets_bind (expression_unterminated onCondition h whole closes noted fits) ?_
      (fun _ _ none => none)
    rintro _ ended ⟨rfl, resumes⟩
    have behind := Parser.behind_of_tokens resumes.tokens
    have adds : parser.Adds ended [missingSemicolon brace] :=
      ⟨resumes.adds.handlers, resumes.adds.depth, resumes.adds.diagnostics⟩
    by_cases nested : last.kind = .closeBrace
    · simp only [remainder, nested, if_true] at behind
      have next : ended.next.kind ≠ .semicolon := by
        rw [Parser.next_of_behind behind, brace.kind_eq]
        decide
      simp only [read_bind, next, if_false]
      exact ⟨by rw [← current]; rfl, by simpa [unread, nested] using behind, adds⟩
    · simp only [remainder, nested, if_false] at behind
      have next : ended.next.kind = .semicolon := by
        rw [Parser.next_of_behind behind, semicolon.kind_eq]
      simp only [read_bind, next, if_true, advance_bind]
      refine ⟨by rw [← current]; rfl, ?_, adds.advance⟩
      simpa [unread, nested] using Parser.behind_advance_of_behind behind

/-- A token with which nothing begins. -/
def Dead (token : Token) : Prop :=
  token.kind ≠ .eof ∧ Handlers.standard.statement token.kind = none ∧
    Handlers.standard.operand token.kind = none

theorem expression_of_dead
    {power : Power} (dead : Dead parser.current) (handlers : parser.handlers = .standard)
    (room : parser.depth < Parser.nestingLimit) :
    (expression fuel power parser).Meets
      (fun _ _ => False)
      (fun diagnostic ended => diagnostic = ⟨.noOperand parser.current.kind, parser.current.start⟩ ∧
        ended.behind = parser.behind ∧ parser.Keeps ended) := by
  cases fuel with
  | zero =>
      trivial
  | succ fuel =>
      simp only [expression, current_bind, modify_bind]
      refine meets_nested (fun _ => ?_) (fun full => absurd room (Nat.not_lt.mpr full))
      simp only [read_bind, Parser.note, handlers, dead.2.2]
      exact ⟨rfl, rfl, rfl, handlers ▸ rfl, rfl, rfl⟩

theorem statement_of_dead
    (dead : Dead parser.current) (handlers : parser.handlers = .standard)
    (room : parser.depth < Parser.nestingLimit) :
    (statement fuel parser).Meets
      (fun _ _ => False)
      (fun diagnostic ended => diagnostic = ⟨.noOperand parser.current.kind, parser.current.start⟩ ∧
        ended.behind = parser.behind ∧ parser.Keeps ended) := by
  rcases fuel with _ | _ | fuel
  · trivial
  · simp only [statement, current_bind, modify_bind, read_bind, Parser.handlers_note,
      handlers, dead.2.1, Option.getD_none]
    trivial
  · simp only [statement, current_bind, modify_bind, read_bind, Parser.handlers_note,
      handlers, dead.2.1, Option.getD_none]
    simp only [statementBy, current_bind]
    have noted := @expression_of_dead fuel (parser.note (.statementBegun parser.current)) .lowest
      dead handlers room
    refine meets_bind noted (fun _ _ none => none.elim) ?_
    rintro _ ended ⟨rfl, behind, keeps⟩
    exact ⟨rfl, behind, keeps.stop, keeps.handlers, keeps.depth, keeps.diagnostics⟩

/-- Tokens with which nothing begins are recorded one by one. -/
theorem statements_of_dead
    (dead : ∀ token ∈ parser.stream.tokens, Dead token) (found : List LetLang.Stmt)
    (handlers : parser.handlers = .standard) (room : parser.depth < Parser.nestingLimit) :
    (statements fuel found parser).Meets
      (fun all ended => all = found.reverse ∧
        parser.Adds ended (parser.stream.tokens.map fun token =>
          ⟨.noOperand token.kind, token.start⟩))
      (fun _ _ => False) := by
  induction fuel generalizing parser with
  | zero =>
      trivial
  | succ fuel ih =>
      simp only [statements, current_bind]
      cases tokens : parser.stream.tokens with
      | nil =>
          simp only [Parser.current_kind_of_tokens_nil tokens, if_true]
          exact ⟨rfl, (Parser.Keeps.refl parser).adds⟩
      | cons token rest =>
          have current := Parser.current_of_tokens tokens
          rw [tokens] at dead
          obtain ⟨deadFirst, deadRest⟩ := List.forall_mem_cons.mp dead
          simp only [current, deadFirst.1, if_false]
          have recovers : (recovering (statement fuel) parser).Meets
              (fun read ended => read = none ∧ ended.behind = rest ∧
                parser.Adds ended [⟨.noOperand token.kind, token.start⟩])
              (fun _ _ => False) := by
            refine meets_recovering ((statement_of_dead (current ▸ deadFirst) handlers room).mono
              (fun _ _ none => none.elim) ?_)
            rintro _ ended ⟨rfl, behind, keeps⟩
            rw [current]
            exact ⟨rfl, behind.trans (Parser.behind_of_tokens tokens),
              keeps.adds.trans (Parser.Adds.record _ _)⟩
          refine meets_bind recovers ?_ (fun _ _ none => none)
          rintro _ ended ⟨rfl, behind, adds⟩
          have tokensBehind : ended.advance.stream.tokens = rest := behind
          simp only [advance_bind, Option.toList_none, List.nil_append]
          have goesOn := @ih ended.advance (tokensBehind.symm ▸ deadRest)
            (adds.handlers.trans handlers) (adds.depth.symm ▸ room)
          refine goesOn.mono ?_ (fun _ _ none => none)
          rintro all last ⟨rfl, more⟩
          rw [tokensBehind] at more
          exact ⟨rfl, adds.advance.trans more⟩

/-- A program that is such a conditional, with a semicolon behind it. -/
theorem statements_unterminated
    (onCondition : condition.Parses) (h : value.Parses) (whole : value.tokens = front ++ [last])
    (before : parser.Before (tokensBefore word opening condition closing first head value)
      [brace.token, semicolon.token])
    (fits : parser.Fits (1 + max condition.nesting value.nesting)) :
    (statements fuel [] parser).Meets
      (fun all ended =>
        all = [.expression word.token (conditionalLeft word condition first last brace)] ∧
          parser.Adds ended (missingSemicolon brace ::
            (unread last brace semicolon).map fun token =>
              ⟨.noOperand token.kind, token.start⟩))
      (fun _ _ => False) := by
  cases fuel with
  | zero =>
      trivial
  | succ fuel =>
      have notEnd : parser.current.kind ≠ .eof := by
        rw [show parser.current = word.token from before.current, word.kind_eq]
        decide
      have dead : ∀ token ∈ unread last brace semicolon, Dead token := by
        unfold unread
        split
        · simp only [List.forall_mem_cons, List.not_mem_nil, false_implies, implies_true,
            and_true, Dead, brace.kind_eq, semicolon.kind_eq]
          decide
        · simp
      simp only [statements, current_bind, notEnd, if_false]
      have recovers : (recovering (statement fuel) parser).Meets
          (fun read ended => read = some (.expression word.token
              (conditionalLeft word condition first last brace)) ∧
            ended.behind = unread last brace semicolon ∧
              parser.Adds ended [missingSemicolon brace])
          (fun _ _ => False) := by
        refine meets_recovering ((statement_unterminated onCondition h whole before fits).mono ?_
          (fun _ _ none => none.elim))
        rintro _ ended ⟨rfl, behind, adds⟩
        exact ⟨rfl, behind, adds⟩
      refine meets_bind recovers ?_ (fun _ _ none => none)
      rintro _ ended ⟨rfl, behind, adds⟩
      have tokens : ended.advance.stream.tokens = unread last brace semicolon := behind
      simp only [advance_bind]
      have room : ended.advance.depth < Parser.nestingLimit := by
        rw [show ended.advance.depth = parser.depth from adds.depth]
        unfold Parser.Fits at fits
        omega
      have goesOn := @statements_of_dead fuel ended.advance (tokens.symm ▸ dead)
      refine (goesOn _ (adds.handlers.trans before.handlers) room).mono ?_ (fun _ _ none => none)
      rintro all late ⟨rfl, more⟩
      rw [tokens] at more
      exact ⟨rfl, adds.advance.trans more⟩

end Program

end Concrete

end LetLang
