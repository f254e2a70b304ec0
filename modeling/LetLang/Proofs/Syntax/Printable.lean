import LetLang.Proofs.Syntax.Bare
import LetLang.Proofs.Token.Scans

/-!
# The tokens of a printed tree

The text of a syntax tree puts every operation in parentheses.  So it is the text of a concrete
tree in which every operation stands in a group, and which is well formed whatever its operators
are.  Erased, this tree has the structure of the one that was printed, and its nesting is the
nesting of the text.

**Result.** Every syntax tree that comes from a concrete tree of spelled tokens is `Printable`: its
text, with something behind it that does not fuse with its last token, is scanned as the tokens of
such a concrete tree.
-/

namespace LetLang

open Text

section Printable

/-- The text of an expression is scanned as a concrete expression of its structure. -/
structure Expr.ReadsAs
    (e : Expr) (offset : Nat) (rest : List Char) (again : Concrete.Expr) : Prop where
  wellFormed : again.WellFormed
  notBinary : ¬ again.IsBinary
  notMinus : again.first.kind ≠ .minus
  bare : again.erase.bare = e.bare
  nesting : again.nesting = e.renderedNesting
  scans : Token.Scans offset e.render.toList rest again.tokens

/-- The text of an expression can be read again wherever it stands before a separating character
or the end of the input, and even behind an exclamation mark. -/
structure Expr.Printable (e : Expr) : Prop where
  head : ∀ more : List Char, ∀ c ∈ (e.render.toList ++ more).head?, c ≠ '='
  reads : ∀ offset rest, (∀ c ∈ rest.head?, Separates c) →
    ∃ again, e.ReadsAs offset rest again

/-- The text of a block can be read again wherever it stands. -/
def Block.Printable (b : Block) : Prop :=
  ∀ offset rest, ∃ again : Concrete.Block,
    again.WellFormed ∧ again.erase.bare = b.bare ∧ again.nesting = b.renderedNesting ∧
      Token.Scans offset b.render.toList rest again.tokens

/-- What follows the first block of a conditional in its text. -/
def Block.elseText : Option Block → List Char
  | none => []
  | some second => [' '] ++ ("else".toList ++ ([' '] ++ second.render.toList))

/-- The end of a conditional behind its first block can be read again. -/
def Block.ElsePrintable (alternative : Option Block) : Prop :=
  ∀ offset rest, ∃ again : Concrete.Alternative,
    again.WellFormed ∧ again.erase.map Block.bare = alternative.map Block.bare ∧
      again.nesting = alternative.elim 0 Block.renderedNesting ∧
        Token.Scans offset (Block.elseText alternative) rest again.tokens

/-- The text of a statement is scanned as a concrete statement of its structure. -/
structure Stmt.ReadsAs
    (s : Stmt) (offset : Nat) (rest : List Char) (again : Concrete.Stmt) : Prop where
  wellFormed : again.WellFormed
  notMinus : again.first.kind ≠ .minus
  bare : again.erase.bare = s.bare
  nesting : again.nesting = s.renderedNesting
  scans : Token.Scans offset s.render.toList rest again.tokens

/-- The text of a statement can be read again wherever it stands before a separating character or
the end of the input. -/
def Stmt.Printable (s : Stmt) : Prop :=
  ∀ offset rest, (∀ c ∈ rest.head?, Separates c) → ∃ again, s.ReadsAs offset rest again

end Printable

section Expressions

/-- A literal or a name is read as the token that it is. -/
theorem Expr.printable_of_token
    {e : Expr} {token : Token} (again : Nat → Concrete.Expr)
    (text : e.render = token.literal) (run : token.kind ∈ Kind.runs)
    (spelled : Token.Spelled token.kind token.literal.toList)
    (leaf : ∀ offset, (again offset).tokens = [token.placed offset] ∧
      (again offset).first.kind = token.kind ∧ (again offset).WellFormed ∧
        ¬ (again offset).IsBinary ∧ (again offset).erase.bare = e.bare ∧
          (again offset).nesting = e.renderedNesting) :
    e.Printable := by
  have other (kind : Kind) (mem : kind ∉ Kind.runs) : token.kind ≠ kind := by
    rintro rfl
    exact mem run
  constructor
  · rw [text]
    exact fun _ => spelled.spells.head_ne_equals (other _ (by decide)) (other _ (by decide))
  · intro offset rest parted
    obtain ⟨tokens, first, wellFormed, notBinary, bare, nesting⟩ := leaf offset
    refine ⟨again offset, wellFormed, notBinary, ?_, bare, nesting, ?_⟩
    · rw [first]
      exact other _ (by decide)
    · rw [text, tokens]
      exact spelled.scans (fun c mem => Kind.fuses_of_mem_runs run (parted c mem))

theorem separates_closeParen :
    Separates ')' := by
  decide

/-- An expression that is printed in parentheses is read as the group of what stands in them. -/
theorem Expr.printable_of_parenthesized
    {e : Expr} {text : List Char}
    (rendered : e.render.toList = ['('] ++ text ++ [')'])
    (inside : ∀ offset rest, ∃ inner : Concrete.Expr,
      inner.WellFormed ∧ inner.erase.bare = e.bare ∧ 1 + inner.nesting = e.renderedNesting ∧
        Token.Scans offset text ([')'] ++ rest) inner.tokens) :
    e.Printable := by
  constructor
  · rw [rendered]
    rintro more c ⟨⟩
    decide
  · intro offset rest _
    obtain ⟨inner, wellFormed, bare, nesting, scans⟩ :=
      inside (offset + byteLength ['(']) rest
    refine ⟨.group (.sign .openParen offset) inner
      (.sign .closeParen (offset + byteLength (['('] ++ text))),
      wellFormed, id, ?_, bare, nesting, ?_⟩
    · exact fun same => by cases same
    · rw [rendered]
      exact scans.parenthesized

theorem Expr.Printable.unary
    {right : Expr} (h : right.Printable) (operator : TokenOf Concrete.unaryOperators)
    (spelled : Token.Spelled operator.token.kind operator.token.literal.toList) :
    (Expr.unary operator.token operator.token.literal right).Printable := by
  have rendered : (Expr.unary operator.token operator.token.literal right).render.toList =
      ['('] ++ (operator.token.literal.toList ++ right.render.toList) ++ [')'] := by
    simp [Expr.render]
  refine Expr.printable_of_parenthesized rendered (fun offset rest => ?_)
  obtain ⟨again, reads⟩ :=
    h.reads (offset + byteLength operator.token.literal.toList) _ (separates_closeParen.head rest)
  have scanned : Token.Scans offset operator.token.literal.toList
      (right.render.toList ++ ([')'] ++ rest)) [(operator.placed offset).token] :=
    spelled.scans (fun c mem => Kind.fuses_of_mem_unary operator.isOf (h.head _ c mem))
  refine ⟨.unary (operator.placed offset) again, ⟨reads.notBinary, reads.wellFormed⟩, ?_, ?_,
    scanned.append reads.scans⟩
  · simp [Concrete.Expr.erase, Expr.bare, reads.bare, TokenOf.placed, Token.placed, Token.bare]
  · simp only [Concrete.Expr.nesting, Expr.renderedNesting, reads.nesting]
    omega

theorem Expr.Printable.binary
    {left right : Expr} (onLeft : left.Printable) (onRight : right.Printable)
    (operator : TokenOf Concrete.binaryOperators)
    (spelled : Token.Spelled operator.token.kind operator.token.literal.toList) :
    (Expr.binary operator.token operator.token.literal left right).Printable := by
  have rendered : (Expr.binary operator.token operator.token.literal left right).render.toList =
      ['('] ++ (left.render.toList ++ (operator.token.literal.toList ++ right.render.toList)) ++
        [')'] := by
    simp [Expr.render]
  refine Expr.printable_of_parenthesized rendered (fun offset rest => ?_)
  let place := offset + byteLength left.render.toList
  obtain ⟨first, readsLeft⟩ := onLeft.reads offset
    (operator.token.literal.toList ++ right.render.toList ++ ([')'] ++ rest))
    (by
      rw [List.append_assoc]
      exact spelled.spells.separates operator.isOf)
  obtain ⟨second, readsRight⟩ := onRight.reads
    (place + byteLength operator.token.literal.toList) _ (separates_closeParen.head rest)
  have scanned : Token.Scans place operator.token.literal.toList
      (right.render.toList ++ ([')'] ++ rest)) [(operator.placed place).token] :=
    spelled.scans (fun _ _ => Kind.fuses_of_mem_binary operator.isOf)
  refine ⟨.binary first (operator.placed place) second,
    ⟨?_, ?_, readsLeft.wellFormed, readsRight.wellFormed⟩, ?_, ?_,
    readsLeft.scans.append (scanned.append readsRight.scans)⟩
  · rw [Concrete.Expr.level_eq_unary readsLeft.notBinary]
    exact Power.le_of_lt (Kind.power_lt_unary _)
  · rw [Concrete.Expr.level_eq_unary readsRight.notBinary]
    exact Kind.power_lt_unary _
  · simp [Concrete.Expr.erase, Expr.bare, readsLeft.bare, readsRight.bare, TokenOf.placed,
      Token.placed, Token.bare]
  · simp only [Concrete.Expr.nesting, Expr.renderedNesting, readsLeft.nesting,
      readsRight.nesting]
    omega

end Expressions

section Blanks

theorem separates_space :
    Separates ' ' := by
  decide

theorem Token.scans_space {offset : Nat} {rest : List Char} :
    Token.Scans offset [' '] rest [] :=
  Token.scans_blank (by decide)

/-- A token is scanned with a space and what stands behind it. -/
theorem Token.Spelled.scans_spaced
    {token : Token} {offset : Nat} {text rest : List Char} {tokens : List Token}
    (h : Token.Spelled token.kind token.literal.toList)
    (behind : Token.Scans (offset + byteLength token.literal.toList + byteLength [' ']) text rest
      tokens) :
    Token.Scans offset (token.literal.toList ++ ([' '] ++ text)) rest
      (token.placed offset :: tokens) := by
  have scanned : Token.Scans offset token.literal.toList ([' '] ++ text ++ rest)
      [token.placed offset] := by
    refine h.scans ?_
    rintro c ⟨⟩
    exact Kind.fuses_of_separates separates_space (by decide)
  exact scanned.append (Token.scans_space.append behind)

end Blanks

section Conditionals

variable {word : TokenOf [.ifWord]} {condition : Expr} {consequence second : Block}
  {alternative : Option Block}

theorem Expr.toList_render_conditional {token : Token} :
    (Expr.conditional token condition consequence alternative).render.toList =
      token.literal.toList ++ ([' '] ++ ((['('] ++ condition.render.toList ++ [')']) ++
        ([' '] ++ (consequence.render.toList ++ Block.elseText alternative)))) := by
  cases alternative <;> simp [Expr.render, Block.elseText]

theorem Expr.bare_conditional {token : Token} :
    (Expr.conditional token condition consequence alternative).bare =
      .conditional token.bare condition.bare consequence.bare
        (alternative.map Block.bare) := by
  cases alternative <;> simp [Expr.bare]

theorem Expr.renderedNesting_conditional {token : Token} :
    (Expr.conditional token condition consequence alternative).renderedNesting =
      1 + max condition.renderedNesting
        (max consequence.renderedNesting (alternative.elim 0 Block.renderedNesting)) := by
  cases alternative <;> simp [Expr.renderedNesting]

theorem Block.elsePrintable_none :
    Block.ElsePrintable none := by
  intro offset rest
  exact ⟨.absent, trivial, rfl, rfl, rfl⟩

theorem Block.Printable.elsePrintable (h : second.Printable) :
    Block.ElsePrintable (some second) := by
  intro offset rest
  let place := offset + byteLength [' ']
  obtain ⟨again, wellFormed, bare, nesting, scans⟩ :=
    h (place + byteLength "else".toList + byteLength [' ']) rest
  let word : TokenOf [.elseWord] := ⟨⟨.elseWord, "else", ⟨0, 0⟩⟩, List.mem_singleton.mpr rfl⟩
  have spelled : Token.Spelled word.token.kind word.token.literal.toList := Token.spelled_else
  refine ⟨.present (word.placed place) again, wellFormed, ?_, nesting, ?_⟩
  · simp [Concrete.Alternative.erase, bare]
  · exact Token.scans_space.append (spelled.scans_spaced scans)

theorem Expr.Printable.conditional
    (onCondition : condition.Printable) (onFirst : consequence.Printable)
    (onSecond : Block.ElsePrintable alternative)
    (spelled : Token.Spelled word.token.kind word.token.literal.toList) :
    (Expr.conditional word.token condition consequence alternative).Printable := by
  constructor
  · intro more
    rw [Expr.toList_render_conditional, List.append_assoc]
    exact spelled.spells.head_ne_equals (word.kind_ne (by decide)) (word.kind_ne (by decide))
  · intro offset rest _
    let place := offset + byteLength word.token.literal.toList + byteLength [' ']
    let place' := place + byteLength (['('] ++ condition.render.toList ++ [')']) + byteLength [' ']
    obtain ⟨inner, reads⟩ := onCondition.reads (place + byteLength ['('])
      ([')'] ++ ([' '] ++ (consequence.render.toList ++ Block.elseText alternative) ++ rest))
      (separates_closeParen.head _)
    obtain ⟨first, firstWell, firstBare, firstNesting, firstScans⟩ :=
      onFirst place' (Block.elseText alternative ++ rest)
    obtain ⟨last, lastWell, lastBare, lastNesting, lastScans⟩ :=
      onSecond (place' + byteLength consequence.render.toList) rest
    refine ⟨.conditional (word.placed offset) (.sign .openParen place) inner
      (.sign .closeParen (place + byteLength (['('] ++ condition.render.toList))) first last,
      ⟨reads.wellFormed, firstWell, lastWell⟩, id, ?_, ?_, ?_, ?_⟩
    · exact word.kind_ne (by decide)
    · rw [Expr.bare_conditional, Concrete.Expr.erase, Expr.bare_conditional, reads.bare,
        firstBare, lastBare]
      rfl
    · rw [Expr.renderedNesting_conditional, Concrete.Expr.nesting, reads.nesting, firstNesting,
        lastNesting]
    · rw [Expr.toList_render_conditional]
      have behind := reads.scans.parenthesized.append
        (Token.scans_space.append (firstScans.append lastScans))
      simpa [Concrete.Expr.tokens] using spelled.scans_spaced behind

end Conditionals

section Statements

variable {value : Expr}

theorem separates_semicolon :
    Separates ';' := by
  decide

theorem TokenOf.scans_semicolon {offset : Nat} {rest : List Char} :
    Token.Scans offset [';'] rest [(TokenOf.sign .semicolon offset).token] :=
  TokenOf.scans_sign (by decide : Kind.semicolon ∈ Token.signs) (fun _ _ => rfl)

theorem Expr.Printable.binding
    (h : value.Printable) (word : TokenOf [.letWord]) (name : TokenOf [.identifier])
    (wordSpelled : Token.Spelled word.token.kind word.token.literal.toList)
    (nameSpelled : Token.Spelled name.token.kind name.token.literal.toList) :
    (Stmt.binding word.token ⟨name.token, name.token.literal⟩ value).Printable := by
  intro offset rest _
  let atName := offset + byteLength word.token.literal.toList + byteLength [' ']
  let atSign := atName + byteLength name.token.literal.toList + byteLength [' ']
  let atValue := atSign + byteLength ['='] + byteLength [' ']
  let atEnd := atValue + byteLength value.render.toList
  obtain ⟨again, reads⟩ := h.reads atValue _ (separates_semicolon.head rest)
  have sign : Token.Scans atSign ['=']
      ([' '] ++ (value.render.toList ++ [';']) ++ rest) [(TokenOf.sign .assign atSign).token] := by
    refine TokenOf.scans_sign (by decide : Kind.assign ∈ Token.signs) ?_
    rintro c ⟨⟩
    exact Kind.fuses_of_separates separates_space (by decide)
  have fromSign := sign.append (Token.scans_space.append
    (reads.scans.append TokenOf.scans_semicolon))
  have fromName : Token.Scans atName _ rest _ := nameSpelled.scans_spaced fromSign
  have whole := wordSpelled.scans_spaced fromName
  refine ⟨.binding (word.placed offset) (name.placed atName) (.sign .assign atSign) again
    (.sign .semicolon atEnd), reads.wellFormed, ?_, ?_, reads.nesting, ?_⟩
  · exact word.kind_ne (by decide)
  · simp [Concrete.Stmt.erase, Stmt.bare, reads.bare, TokenOf.placed, Identifier.bare,
      Token.placed, Token.bare]
  · simpa [Stmt.render, Concrete.Stmt.tokens] using whole

theorem Stmt.printable_returningNothing
    (word : TokenOf [.returnWord])
    (spelled : Token.Spelled word.token.kind word.token.literal.toList) :
    (Stmt.returning word.token none).Printable := by
  intro offset rest _
  have parted : ∀ c ∈ ([';'] ++ rest).head?, word.token.kind.fuses c = false := by
    rintro c ⟨⟩
    exact Kind.fuses_of_separates separates_semicolon (by decide)
  refine ⟨.returningNothing (word.placed offset)
    (.sign .semicolon (offset + byteLength word.token.literal.toList)), trivial, ?_, rfl, rfl, ?_⟩
  · exact word.kind_ne (by decide)
  · simpa [Stmt.render, Concrete.Stmt.tokens] using
      (spelled.scans parted).append TokenOf.scans_semicolon

theorem Expr.Printable.returning
    (h : value.Printable) (word : TokenOf [.returnWord])
    (spelled : Token.Spelled word.token.kind word.token.literal.toList) :
    (Stmt.returning word.token (some value)).Printable := by
  intro offset rest _
  let atValue := offset + byteLength word.token.literal.toList + byteLength [' ']
  let atEnd := atValue + byteLength value.render.toList
  obtain ⟨again, reads⟩ := h.reads atValue _ (separates_semicolon.head rest)
  have whole := spelled.scans_spaced (reads.scans.append TokenOf.scans_semicolon)
  refine ⟨.returning (word.placed offset) again (.sign .semicolon atEnd), reads.wellFormed, ?_,
    ?_, reads.nesting, ?_⟩
  · exact word.kind_ne (by decide)
  · simp [Concrete.Stmt.erase, Stmt.bare, reads.bare, TokenOf.placed, Token.placed, Token.bare]
  · simpa [Stmt.render, Concrete.Stmt.tokens] using whole

theorem Expr.Printable.expression (h : value.Printable) (token : Token) :
    (Stmt.expression token value).Printable := by
  intro offset rest parted
  obtain ⟨again, reads⟩ := h.reads offset rest parted
  refine ⟨.expression again none, reads.wellFormed, reads.notMinus, ?_, reads.nesting, ?_⟩
  · simp [Concrete.Stmt.erase, Stmt.bare, reads.bare]
  · simpa [Stmt.render, Concrete.Stmt.tokens] using reads.scans

end Statements

section Blocks

variable {all : List Stmt} {before after : List Char}

/-- The texts of some statements, each between blanks. -/
def Stmt.textOf (before after : List Char) : List Stmt → List Char
  | [] => []
  | first :: rest => before ++ (first.render.toList ++ (after ++ Stmt.textOf before after rest))

/-- The texts of some statements are scanned as concrete statements of their structure. -/
structure Stmt.AllReadAs
    (all : List Stmt) (offset : Nat) (text rest : List Char) (again : List Concrete.Stmt) :
    Prop where
  wellFormed : Concrete.Stmt.AllWellFormed again
  notMinus : ∀ next ∈ again.head?, next.first.kind ≠ .minus
  bare : (Concrete.Stmt.eraseAll again).map Stmt.bare = all.map Stmt.bare
  nesting : Concrete.Stmt.nestingOf again = Stmt.renderedNestingOf all
  scans : Token.Scans offset text rest (Concrete.Stmt.tokensOf again)

theorem Token.scans_blanks {blanks : List Char} (h : ∀ c ∈ blanks, isBlank c)
    {offset : Nat} {rest : List Char} :
    Token.Scans offset blanks rest [] :=
  Token.scan_blanks h

/-- Behind a statement stands a blank, or what is behind them all. -/
theorem Stmt.separates_textOf
    (blanks : ∀ c ∈ before ++ after, Separates c) (apart : before ++ after ≠ [])
    {rest : List Char} (parted : ∀ c ∈ rest.head?, Separates c) :
    ∀ c ∈ (after ++ (Stmt.textOf before after all ++ rest)).head?, Separates c := by
  cases after with
  | cons d ds =>
      rintro c ⟨⟩
      exact blanks _ (by simp)
  | nil =>
      cases all with
      | nil =>
          exact parted
      | cons next others =>
          cases before with
          | nil =>
              exact absurd rfl apart
          | cons d ds =>
              rintro c ⟨⟩
              exact blanks _ (by simp)

theorem Stmt.exists_allReadAs
    (h : ∀ s ∈ all, s.Printable)
    (blanks : ∀ c ∈ before ++ after, isBlank c ∧ Separates c) (apart : before ++ after ≠ [])
    (offset : Nat) {rest : List Char} (parted : ∀ c ∈ rest.head?, Separates c) :
    ∃ again, Stmt.AllReadAs all offset (Stmt.textOf before after all) rest again := by
  induction all generalizing offset with
  | nil =>
      exact ⟨[], trivial, by simp, rfl, rfl, rfl⟩
  | cons s following ih =>
      obtain ⟨onFirst, onFollowing⟩ := List.forall_mem_cons.mp h
      obtain ⟨blankBefore, blankAfter⟩ := List.forall_mem_append.mp blanks
      obtain ⟨first, reads⟩ := onFirst (offset + byteLength before)
        (after ++ Stmt.textOf before after following ++ rest) (by
          rw [List.append_assoc]
          exact Stmt.separates_textOf (fun c mem => (blanks c mem).2) apart parted)
      obtain ⟨others, readAs⟩ := ih onFollowing
        (offset + byteLength before + byteLength s.render.toList + byteLength after)
      have spaceBefore := @Token.scans_blanks before (fun c mem => (blankBefore c mem).1) offset
        (s.render.toList ++ (after ++ Stmt.textOf before after following) ++ rest)
      have spaceAfter := @Token.scans_blanks after (fun c mem => (blankAfter c mem).1)
        (offset + byteLength before + byteLength s.render.toList)
        (Stmt.textOf before after following ++ rest)
      refine ⟨first :: others, ⟨reads.wellFormed, ?_, readAs.wellFormed⟩, ?_, ?_, ?_, ?_⟩
      · cases others with
        | nil =>
            trivial
        | cons next more =>
            exact fun _ => readAs.notMinus next rfl
      · rintro next ⟨⟩
        exact reads.notMinus
      · simp [Concrete.Stmt.eraseAll, reads.bare, readAs.bare]
      · simp only [Concrete.Stmt.nestingOf, Stmt.renderedNestingOf, reads.nesting, readAs.nesting]
      · exact spaceBefore.append (reads.scans.append (spaceAfter.append readAs.scans))

theorem Stmt.toList_renderSpaced (all : List Stmt) :
    (Stmt.renderSpaced all).toList = Stmt.textOf [' '] [] all := by
  induction all with
  | nil =>
      rfl
  | cons first rest ih =>
      simp [Stmt.renderSpaced, Stmt.textOf, ih]

theorem Block.printable_of_statements
    (h : ∀ s ∈ all, s.Printable) (opening : TokenOf [.openBrace]) (span : Span)
    (spelled : Token.Spelled opening.token.kind opening.token.literal.toList) :
    (Block.mk opening.token span all).Printable := by
  intro offset rest
  have literal : opening.token.literal = Kind.openBrace.name := by
    rw [opening.kind_eq] at spelled
    exact String.toList_inj.mp spelled.spells.text_of_openBrace
  have rendered : (Block.mk opening.token span all).render.toList =
      ['\x7b'] ++ (Stmt.textOf [' '] [] all ++ ([' '] ++ ['\x7d'])) := by
    simp [Block.render, Stmt.toList_renderSpaced]
  let place := offset + byteLength ['\x7b']
  let place' := place + byteLength (Stmt.textOf [' '] [] all) + byteLength [' ']
  have space : ∀ c ∈ [' '] ++ ([] : List Char), isBlank c ∧ Separates c :=
    List.forall_mem_singleton.mpr ⟨by decide, separates_space⟩
  obtain ⟨again, readAs⟩ := Stmt.exists_allReadAs h space (List.cons_ne_nil _ _) place
    (separates_space.head _)
  have opens : Token.Scans offset ['\x7b']
      (Stmt.textOf [' '] [] all ++ ([' '] ++ ['\x7d']) ++ rest) _ :=
    TokenOf.scans_sign (by decide : Kind.openBrace ∈ Token.signs) (fun _ _ => rfl)
  have closes : Token.Scans place' ['\x7d'] rest _ :=
    TokenOf.scans_sign (by decide : Kind.closeBrace ∈ Token.signs) (fun _ _ => rfl)
  have ends := Token.scans_space.append closes
  have inside : Token.Scans place (Stmt.textOf [' '] [] all) ([' '] ++ ['\x7d'] ++ rest) _ :=
    readAs.scans
  refine ⟨.mk (.sign .openBrace offset) again (.sign .closeBrace place'), readAs.wellFormed, ?_,
    readAs.nesting, ?_⟩
  · simp [Concrete.Block.erase, Block.bare, Stmt.bareAll_eq_map, readAs.bare, TokenOf.sign,
      Token.placed, Token.bare, opening.kind_eq, literal]
  · rw [rendered]
    simpa [Concrete.Block.tokens] using
      opens.append (inside.append ends)

end Blocks

/-- All of some tokens are spelled. -/
def Token.AllSpelled (tokens : List Token) : Prop :=
  ∀ token ∈ tokens, Token.Spelled token.kind token.literal.toList

namespace Concrete

open Token (AllSpelled)

mutual

theorem Expr.printable :
    ∀ e : Expr, AllSpelled e.tokens → e.erase.Printable
  | .identifier name, h =>
      LetLang.Expr.printable_of_token (fun offset => .identifier (name.placed offset)) rfl
        (by rw [name.kind_eq]; decide) (h name.token List.mem_cons_self)
        (fun _ => ⟨rfl, rfl, trivial, id, rfl, rfl⟩)
  | .integer literal, h =>
      LetLang.Expr.printable_of_token
        (fun offset => .integer
          ⟨literal.toTokenOf.placed offset, literal.value, literal.converts⟩) rfl
        (by rw [literal.kind_eq]; decide) (h literal.token List.mem_cons_self)
        (fun _ => ⟨rfl, rfl, trivial, id, rfl, rfl⟩)
  | .float literal, h =>
      LetLang.Expr.printable_of_token
        (fun offset => .float
          ⟨literal.toTokenOf.placed offset, literal.value, literal.converts⟩) rfl
        (by rw [literal.kind_eq]; decide) (h literal.token List.mem_cons_self)
        (fun _ => ⟨rfl, rfl, trivial, id, rfl, rfl⟩)
  | .boolean word, h =>
      LetLang.Expr.printable_of_token (fun offset => .boolean (word.placed offset)) rfl
        (Kind.runs_of_mem_booleans word.isOf) (h word.token List.mem_cons_self)
        (fun _ => ⟨rfl, rfl, trivial, id, rfl, rfl⟩)
  | .unary operator right, h => by
      obtain ⟨onOperator, onRight⟩ := List.forall_mem_cons.mp h
      exact (right.printable onRight).unary operator onOperator
  | .binary left operator right, h => by
      obtain ⟨onLeft, others⟩ := List.forall_mem_append.mp h
      obtain ⟨onOperator, onRight⟩ := List.forall_mem_cons.mp others
      exact (left.printable onLeft).binary (right.printable onRight) operator onOperator
  | .group opening inner closing, h => by
      obtain ⟨_, others⟩ := List.forall_mem_cons.mp h
      exact inner.printable (List.forall_mem_append.mp others).1
  | .conditional word opening condition closing consequence alternative, h => by
      obtain ⟨onWord, h⟩ := List.forall_mem_cons.mp h
      obtain ⟨_, h⟩ := List.forall_mem_cons.mp h
      obtain ⟨onCondition, h⟩ := List.forall_mem_append.mp h
      obtain ⟨_, h⟩ := List.forall_mem_cons.mp h
      obtain ⟨onFirst, onSecond⟩ := List.forall_mem_append.mp h
      exact (condition.printable onCondition).conditional (consequence.printable onFirst)
        (alternative.printable onSecond) onWord

theorem Alternative.printable :
    ∀ a : Alternative, AllSpelled a.tokens → LetLang.Block.ElsePrintable a.erase
  | .absent, _ => LetLang.Block.elsePrintable_none
  | .present _ second, h =>
      (second.printable (List.forall_mem_cons.mp h).2).elsePrintable

theorem Block.printable :
    ∀ b : Block, AllSpelled b.tokens → b.erase.Printable
  | .mk opening statements _, h => by
      obtain ⟨onOpening, h⟩ := List.forall_mem_cons.mp h
      exact LetLang.Block.printable_of_statements
        (Stmt.allPrintable statements (List.forall_mem_append.mp h).1) opening _ onOpening

theorem Stmt.printable :
    ∀ s : Stmt, AllSpelled s.tokens → s.erase.Printable
  | .binding word name _ value _, h => by
      obtain ⟨onWord, h⟩ := List.forall_mem_cons.mp h
      obtain ⟨onName, h⟩ := List.forall_mem_cons.mp h
      obtain ⟨_, h⟩ := List.forall_mem_cons.mp h
      exact (value.printable (List.forall_mem_append.mp h).1).binding word name onWord onName
  | .returningNothing word _, h =>
      LetLang.Stmt.printable_returningNothing word (h word.token List.mem_cons_self)
  | .returning word value _, h => by
      obtain ⟨onWord, h⟩ := List.forall_mem_cons.mp h
      exact (value.printable (List.forall_mem_append.mp h).1).returning word onWord
  | .expression value _, h =>
      (value.printable (List.forall_mem_append.mp h).1).expression value.first

theorem Stmt.allPrintable :
    ∀ all : List Stmt, AllSpelled (Stmt.tokensOf all) →
      ∀ s ∈ Stmt.eraseAll all, s.Printable
  | [], _ => by
      simp [Stmt.eraseAll]
  | first :: rest, h => by
      obtain ⟨onFirst, onRest⟩ := List.forall_mem_append.mp h
      exact List.forall_mem_cons.mpr ⟨first.printable onFirst, Stmt.allPrintable rest onRest⟩

end

end Concrete

end LetLang
