import LetLang.Proofs.Concrete.First

/-!
# The concrete syntax is not ambiguous

**Input.** Two well-formed trees of one notion of the grammar that have the same tokens, each of
them in front of tokens with which it does not go on.

**Proof.** By induction on the one of the two trees.  An operand is known by its first token, and
its parts follow from the induction.  An operation is compared with the other tree along the left
operands of both: what is one tree so far either grows into the other by the operators that come
next, or the other into it.  How strongly the operators bind decides where the right operands end.

**Result.** `Program.eq_of_tokens`: they are one tree.  It does not matter how deeply they are
nested.
-/

namespace LetLang

theorem TokenOf.eq_of_token
    {kinds : List Kind} {first second : TokenOf kinds} (h : first.token = second.token) :
    first = second := by
  obtain ⟨token, isOf⟩ := first
  obtain rfl : token = second.token := h
  rfl

namespace Concrete

/-- The text of an integer settles its value. -/
theorem IntegerLiteral.eq_of_token
    {first second : IntegerLiteral} (h : first.token = second.token) :
    first = second := by
  obtain ⟨token, value, converts⟩ := first
  obtain rfl : token = second.toTokenOf := TokenOf.eq_of_token h
  obtain rfl : value = second.value := Except.ok.inj (converts.symm.trans second.converts)
  rfl

/-- The text of a float settles its value. -/
theorem FloatLiteral.eq_of_token
    {first second : FloatLiteral} (h : first.token = second.token) :
    first = second := by
  obtain ⟨token, value, converts⟩ := first
  obtain rfl : token = second.toTokenOf := TokenOf.eq_of_token h
  obtain rfl : value = second.value := Option.some.inj (converts.symm.trans second.converts)
  rfl

section Growth

/-- An expression grows into another one with the tokens behind it: it is taken for the left
operand of the operator that stands there, and what comes of it again. -/
inductive Expr.Grows (e : Expr) (rest : List Token) : Expr → List Token → Prop
  | refl : Grows e rest e rest
  | step {left right : Expr} {operator : TokenOf binaryOperators} {more : List Token}
      (h : Grows e rest left (operator.token :: (right.tokens ++ more))) :
      Grows e rest (.binary left operator right) more

variable {e whole : Expr} {rest more : List Token}

theorem Expr.Grows.tokens_eq (h : e.Grows rest whole more) :
    e.tokens ++ rest = whole.tokens ++ more := by
  induction h with
  | refl =>
      rfl
  | step h ih =>
      rw [ih]
      simp [Expr.tokens]

/-- What closes the whole of an expression leaves its left operands closed as they stand. -/
theorem Expr.Grows.closes
    (h : e.Grows rest whole more) (wellFormed : whole.WellFormed)
    (closed : Closes whole.level more) :
    e.WellFormed ∧ Closes e.level rest := by
  induction h with
  | refl =>
      exact ⟨wellFormed, closed⟩
  | @step left right operator more h ih =>
      obtain ⟨weaker, _, onLeft, _⟩ := wellFormed
      exact ih onLeft (closes_cons weaker (ne_elseWord_of_mem operator.isOf))

/-- The first operator by which an expression grows is the strongest of them. -/
theorem Expr.Grows.eq_or_level_le
    (h : e.Grows rest whole more) (wellFormed : whole.WellFormed) :
    (whole = e ∧ more = rest) ∨
      (whole.IsBinary ∧ ∃ token ∈ rest.head?, whole.level ≤ token.kind.power) := by
  induction h with
  | refl =>
      exact .inl ⟨rfl, rfl⟩
  | @step left right operator more h ih =>
      obtain ⟨weaker, _, onLeft, _⟩ := wellFormed
      rcases ih onLeft with ⟨_, same⟩ | ⟨_, token, mem, le⟩
      · exact .inr ⟨trivial, operator.token, by rw [← same]; rfl, Power.le_refl _⟩
      · exact .inr ⟨trivial, token, mem, Power.le_trans weaker le⟩

/-- An expression does not grow where no operator stands that binds strongly enough. -/
theorem Expr.Grows.eq_of_closes
    (h : e.Grows rest whole more) (wellFormed : whole.WellFormed) {power : Power}
    (binds : whole.IsBinary → power < whole.level) (closed : Closes power rest) :
    whole = e ∧ more = rest := by
  rcases h.eq_or_level_le wellFormed with same | ⟨binary, token, mem, le⟩
  · exact same
  · have weak : token.kind.power ≤ power := (closed token mem).1
    exact absurd (binds binary) (Power.not_lt.mpr (Power.le_trans le weak))

/-- An expression that grows does so by one operation first. -/
theorem Expr.Grows.cases_first (h : e.Grows rest whole more) :
    (whole = e ∧ more = rest) ∨
      ∃ operator right between, rest = operator.token :: (right.tokens ++ between) ∧
        (Expr.binary e operator right).Grows between whole more := by
  induction h with
  | refl =>
      exact .inl ⟨rfl, rfl⟩
  | @step left right operator more h ih =>
      rcases ih with ⟨rfl, same⟩ | ⟨operator', right', between, same, grows⟩
      · exact .inr ⟨operator, right, more, same.symm, .refl⟩
      · exact .inr ⟨operator', right', between, same, grows.step⟩

/-- Every expression has grown from an operand. -/
theorem Expr.exists_operand_grows :
    ∀ (whole : Expr) (more : List Token),
      ∃ (e : Expr) (rest : List Token), ¬ e.IsBinary ∧ e.Grows rest whole more
  | .identifier _, more => ⟨_, more, id, .refl⟩
  | .integer _, more => ⟨_, more, id, .refl⟩
  | .float _, more => ⟨_, more, id, .refl⟩
  | .boolean _, more => ⟨_, more, id, .refl⟩
  | .unary _ _, more => ⟨_, more, id, .refl⟩
  | .binary left operator right, more => by
      obtain ⟨e, rest, notBinary, grows⟩ :=
        left.exists_operand_grows (operator.token :: (right.tokens ++ more))
      exact ⟨e, rest, notBinary, grows.step⟩
  | .group _ _ _, more => ⟨_, more, id, .refl⟩
  | .conditional _ _ _ _ _ _, more => ⟨_, more, id, .refl⟩

end Growth

section Determined

/-- Of two expressions with the same tokens that are closed as they stand, one is the other or has
grown from it. -/
def Expr.Determined (e : Expr) : Prop :=
  ∀ (other : Expr) (rest rest' : List Token), e.WellFormed → other.WellFormed →
    Closes e.level rest → Closes other.level rest' →
      e.tokens ++ rest = other.tokens ++ rest' →
        e.Grows rest other rest' ∨ other.Grows rest' e rest

/-- Of two operands with the same tokens, read in the same way, one is the other. -/
def Expr.DeterminedAsOperand (e : Expr) : Prop :=
  ∀ (other : Expr) (rest rest' : List Token), ¬ other.IsBinary → e.handler = other.handler →
    e.WellFormed → other.WellFormed → Closes .unary rest → Closes .unary rest' →
      e.tokens ++ rest = other.tokens ++ rest' → e = other ∧ rest = rest'

/-- Of two blocks with the same tokens one is the other. -/
def Block.Determined (b : Block) : Prop :=
  ∀ (other : Block) (rest rest' : List Token), b.WellFormed → other.WellFormed →
    b.tokens ++ rest = other.tokens ++ rest' → b = other ∧ rest = rest'

/-- Of two alternatives with the same tokens one is the other, if no `else` is behind them. -/
def Alternative.Determined (a : Alternative) : Prop :=
  ∀ (other : Alternative) (rest rest' : List Token), a.WellFormed → other.WellFormed →
    Closes .unary rest → Closes .unary rest' →
      a.tokens ++ rest = other.tokens ++ rest' → a = other ∧ rest = rest'

/-- Of two statements with the same tokens one is the other, if both are settled. -/
def Stmt.Determined (s : Stmt) : Prop :=
  ∀ (other : Stmt) (rest rest' : List Token), s.WellFormed → other.WellFormed →
    (s.IsOpen → Settles rest) → (other.IsOpen → Settles rest') →
      s.tokens ++ rest = other.tokens ++ rest' → s = other ∧ rest = rest'

/-- Behind the statements of a block is its closing brace, and behind those of a program nothing. -/
def Stops (rest : List Token) : Prop :=
  ∀ token ∈ rest.head?, token.kind = .closeBrace

/-- Of two lists of statements with the same tokens one is the other, up to where both stop. -/
def Stmt.AllDetermined (all : List Stmt) : Prop :=
  ∀ (others : List Stmt) (rest rest' : List Token),
    Stmt.AllWellFormed all → Stmt.AllWellFormed others → Stops rest → Stops rest' →
      Stmt.tokensOf all ++ rest = Stmt.tokensOf others ++ rest' → all = others ∧ rest = rest'

variable {e other : Expr} {rest rest' : List Token}

/-- Where the same tokens begin, an operand is read in the same way. -/
theorem Expr.handler_eq_of_tokens (same : e.tokens ++ rest = other.tokens ++ rest') :
    e.handler = other.handler := by
  obtain ⟨more, begins⟩ := e.exists_tokens_eq
  obtain ⟨more', begins'⟩ := other.exists_tokens_eq
  rw [begins, begins'] at same
  have first : e.first = other.first := (List.cons.inj same).1
  have handled := e.operand_first
  rw [first, other.operand_first] at handled
  exact (Option.some.inj handled).symm

theorem Expr.determined_of_operand
    (notBinary : ¬ e.IsBinary) (h : e.DeterminedAsOperand) :
    e.Determined := by
  intro other rest rest' wellFormed wellFormed' closed closed' same
  obtain ⟨e', between, notBinary', grows⟩ := other.exists_operand_grows rest'
  obtain ⟨onOperand, closedOperand⟩ := grows.closes wellFormed' closed'
  rw [Expr.level_eq_unary notBinary] at closed
  rw [Expr.level_eq_unary notBinary'] at closedOperand
  rw [← grows.tokens_eq] at same
  obtain ⟨rfl, rfl⟩ := h e' rest between notBinary' (Expr.handler_eq_of_tokens same)
    wellFormed onOperand closed closedOperand same
  exact .inl grows

/-- Expressions that are closed for one power, with which both could be asked for, are the same. -/
theorem Expr.Determined.eq_of_closes
    (h : e.Determined) {power : Power} (wellFormed : e.WellFormed) (wellFormed' : other.WellFormed)
    (binds : e.IsBinary → power < e.level) (binds' : other.IsBinary → power < other.level)
    (closed : Closes power rest) (closed' : Closes power rest')
    (same : e.tokens ++ rest = other.tokens ++ rest') :
    e = other ∧ rest = rest' := by
  rcases h other rest rest' wellFormed wellFormed' (closed.level binds) (closed'.level binds') same
    with grows | grows
  · obtain ⟨rfl, rfl⟩ := grows.eq_of_closes wellFormed' binds' closed
    exact ⟨rfl, rfl⟩
  · exact grows.eq_of_closes wellFormed binds closed'

/-- No operator is too weak for a whole expression. -/
theorem Expr.Determined.eq_of_closes_lowest
    (h : e.Determined) (wellFormed : e.WellFormed) (wellFormed' : other.WellFormed)
    (closed : Closes .lowest rest) (closed' : Closes .lowest rest')
    (same : e.tokens ++ rest = other.tokens ++ rest') :
    e = other ∧ rest = rest' :=
  h.eq_of_closes wellFormed wellFormed' (fun _ => e.lowest_lt_level)
    (fun _ => other.lowest_lt_level) closed closed' same

/-- An operation is found in every tree with its tokens, as far as the two have grown. -/
theorem Expr.determined_binary
    {left right : Expr} (onLeft : left.Determined) (onRight : right.Determined)
    (operator : TokenOf binaryOperators) :
    (Expr.binary left operator right).Determined := by
  rintro other rest rest' ⟨weaker, stronger, wellLeft, wellRight⟩ wellFormed' closed closed' same
  have sameLeft : left.tokens ++ operator.token :: (right.tokens ++ rest) =
      other.tokens ++ rest' := by
    simpa [Expr.tokens] using same
  rcases onLeft other _ rest' wellLeft wellFormed'
    (closes_cons weaker (ne_elseWord_of_mem operator.isOf)) closed' sameLeft with grows | grows
  · rcases grows.cases_first with ⟨rfl, rfl⟩ | ⟨operator', right', between, behind, further⟩
    · exact .inr (Expr.Grows.step .refl)
    · obtain ⟨sameToken, tokens⟩ := List.cons.inj behind
      obtain rfl : operator = operator' := TokenOf.eq_of_token sameToken
      obtain ⟨⟨_, stronger', _, wellRight'⟩, closedBetween⟩ := further.closes wellFormed' closed'
      obtain ⟨rfl, rfl⟩ := onRight.eq_of_closes wellRight wellRight' (fun _ => stronger)
        (fun _ => stronger') closed closedBetween tokens
      exact .inl further
  · exact .inr grows.step

end Determined

section Ends

variable {rest rest' : List Token}

theorem Stops.settles (h : Stops rest) :
    Settles rest := by
  refine ⟨fun token mem => ?_, fun token mem => ?_⟩ <;> rw [h token mem] <;> decide

/-- No statement begins where statements stop. -/
theorem Stops.ne_tokens (h : Stops rest) (s : Stmt) (more : List Token) :
    rest ≠ s.tokens ++ more := by
  rintro rfl
  obtain ⟨others, begins⟩ := s.exists_tokens_eq
  rw [begins] at h
  exact (ne_end_of_beginning s.first_mem_beginnings).1 (h s.first rfl)

theorem stops_closeBrace (closing : TokenOf [.closeBrace]) :
    Stops (closing.token :: rest) := by
  rintro token ⟨⟩
  exact closing.kind_eq

theorem closes_closeParen (closing : TokenOf [.closeParen]) :
    Closes .lowest (closing.token :: rest) :=
  closes_token closing (by decide) (by decide)

theorem closes_semicolon (semicolon : TokenOf [.semicolon]) :
    Closes .lowest (semicolon.token :: rest) :=
  closes_token semicolon (by decide) (by decide)

/-- A value and the semicolon behind it are known from their tokens. -/
theorem Expr.Determined.eq_of_terminated
    {value value' : Expr} (h : value.Determined)
    (wellFormed : value.WellFormed) (wellFormed' : value'.WellFormed)
    {semicolon semicolon' : TokenOf [.semicolon]}
    (same : value.tokens ++ semicolon.token :: rest =
      value'.tokens ++ semicolon'.token :: rest') :
    value = value' ∧ semicolon = semicolon' ∧ rest = rest' := by
  obtain ⟨sameValue, behind⟩ := h.eq_of_closes_lowest wellFormed wellFormed'
    (closes_semicolon semicolon) (closes_semicolon semicolon') same
  obtain ⟨sameToken, sameRest⟩ := List.cons.inj behind
  exact ⟨sameValue, TokenOf.eq_of_token sameToken, sameRest⟩

end Ends

section Operands

/-- An operand of one token is known if the token tells it from the others that are read so. -/
theorem Expr.determinedAsOperand_of_leaf
    {e : Expr} (single : e.tokens = [e.first])
    (h : ∀ other : Expr, ¬ other.IsBinary → e.handler = other.handler →
      other.tokens = [other.first] ∧ (e.first = other.first → e = other)) :
    e.DeterminedAsOperand := by
  intro other rest rest' notBinary handled _ _ _ _ same
  obtain ⟨single', known⟩ := h other notBinary handled
  rw [single, single'] at same
  obtain ⟨sameToken, sameRest⟩ := List.cons.inj same
  exact ⟨known sameToken, sameRest⟩

theorem Expr.identifier_determined (name : TokenOf [.identifier]) :
    (Expr.identifier name).DeterminedAsOperand := by
  refine Expr.determinedAsOperand_of_leaf rfl (fun other notBinary handled => ?_)
  cases other with
  | identifier name' =>
      exact ⟨rfl, fun same => congrArg Expr.identifier (TokenOf.eq_of_token same)⟩
  | binary => exact absurd trivial notBinary
  | _ => cases handled

theorem Expr.integer_determined (literal : IntegerLiteral) :
    (Expr.integer literal).DeterminedAsOperand := by
  refine Expr.determinedAsOperand_of_leaf rfl (fun other notBinary handled => ?_)
  cases other with
  | integer literal' =>
      exact ⟨rfl, fun same => congrArg Expr.integer (IntegerLiteral.eq_of_token same)⟩
  | binary => exact absurd trivial notBinary
  | _ => cases handled

theorem Expr.float_determined (literal : FloatLiteral) :
    (Expr.float literal).DeterminedAsOperand := by
  refine Expr.determinedAsOperand_of_leaf rfl (fun other notBinary handled => ?_)
  cases other with
  | float literal' =>
      exact ⟨rfl, fun same => congrArg Expr.float (FloatLiteral.eq_of_token same)⟩
  | binary => exact absurd trivial notBinary
  | _ => cases handled

theorem Expr.boolean_determined (word : TokenOf [.trueWord, .falseWord]) :
    (Expr.boolean word).DeterminedAsOperand := by
  refine Expr.determinedAsOperand_of_leaf rfl (fun other notBinary handled => ?_)
  cases other with
  | boolean word' =>
      exact ⟨rfl, fun same => congrArg Expr.boolean (TokenOf.eq_of_token same)⟩
  | binary => exact absurd trivial notBinary
  | _ => cases handled

theorem Expr.Determined.unary
    {right : Expr} (h : right.Determined) (operator : TokenOf unaryOperators) :
    (Expr.unary operator right).DeterminedAsOperand := by
  rintro other rest rest' notBinary handled ⟨alone, wellFormed⟩ wellFormed' closed closed' same
  cases other with
  | unary operator' right' =>
      obtain ⟨alone', wellFormed'⟩ := wellFormed'
      obtain ⟨sameToken, behind⟩ := List.cons.inj same
      obtain ⟨rfl, sameRest⟩ := h.eq_of_closes wellFormed wellFormed'
        (fun binary => absurd binary alone) (fun binary => absurd binary alone') closed closed'
        behind
      rw [TokenOf.eq_of_token sameToken]
      exact ⟨rfl, sameRest⟩
  | binary => exact absurd trivial notBinary
  | _ => cases handled

theorem Expr.Determined.group
    {inner : Expr} (h : inner.Determined)
    (opening : TokenOf [.openParen]) (closing : TokenOf [.closeParen]) :
    (Expr.group opening inner closing).DeterminedAsOperand := by
  intro other rest rest' notBinary handled wellFormed wellFormed' _ _ same
  cases other with
  | group opening' inner' closing' =>
      simp only [Expr.tokens, List.cons_append, List.append_assoc, List.nil_append] at same
      obtain ⟨sameOpening, inside⟩ := List.cons.inj same
      obtain ⟨rfl, behind⟩ :=
        @Expr.Determined.eq_of_closes_lowest _ inner' _ _ h wellFormed wellFormed'
          (closes_closeParen closing) (closes_closeParen closing') inside
      obtain ⟨sameClosing, sameRest⟩ := List.cons.inj behind
      rw [TokenOf.eq_of_token sameOpening, TokenOf.eq_of_token sameClosing]
      exact ⟨rfl, sameRest⟩
  | binary => exact absurd trivial notBinary
  | _ => cases handled

theorem Expr.Determined.conditional
    {condition : Expr} {consequence : Block} {alternative : Alternative}
    (onCondition : condition.Determined) (onFirst : consequence.Determined)
    (onSecond : alternative.Determined) (word : TokenOf [.ifWord])
    (opening : TokenOf [.openParen]) (closing : TokenOf [.closeParen]) :
    (Expr.conditional word opening condition closing consequence
      alternative).DeterminedAsOperand := by
  rintro other rest rest' notBinary handled ⟨wellCondition, wellFirst, wellSecond⟩ wellFormed'
    closed closed' same
  cases other with
  | conditional word' opening' condition' closing' consequence' alternative' =>
      obtain ⟨wellCondition', wellFirst', wellSecond'⟩ := wellFormed'
      simp only [Expr.tokens, List.cons_append, List.append_assoc] at same
      obtain ⟨sameWord, atOpening⟩ := List.cons.inj same
      obtain ⟨sameOpening, atCondition⟩ := List.cons.inj atOpening
      obtain ⟨rfl, atClosing⟩ := onCondition.eq_of_closes_lowest wellCondition wellCondition'
        (closes_closeParen closing) (closes_closeParen closing') atCondition
      obtain ⟨sameClosing, atFirst⟩ := List.cons.inj atClosing
      obtain ⟨rfl, atSecond⟩ := onFirst consequence' _ _ wellFirst wellFirst' atFirst
      obtain ⟨rfl, sameRest⟩ :=
        onSecond alternative' _ _ wellSecond wellSecond' closed closed' atSecond
      rw [TokenOf.eq_of_token sameWord, TokenOf.eq_of_token sameOpening,
        TokenOf.eq_of_token sameClosing]
      exact ⟨rfl, sameRest⟩
  | binary => exact absurd trivial notBinary
  | _ => cases handled

end Operands

section Blocks

theorem Alternative.absent_determined :
    Alternative.absent.Determined := by
  intro other rest rest' _ _ closed closed' same
  cases other with
  | absent =>
      exact ⟨rfl, same⟩
  | present word block =>
      obtain rfl : rest = word.token :: (block.tokens ++ rest') := same
      exact absurd word.kind_eq (closed word.token rfl).2

theorem Block.Determined.present
    {block : Block} (h : block.Determined) (word : TokenOf [.elseWord]) :
    (Alternative.present word block).Determined := by
  intro other rest rest' wellFormed wellFormed' closed closed' same
  cases other with
  | absent =>
      obtain rfl : word.token :: (block.tokens ++ rest) = rest' := same
      exact absurd word.kind_eq (closed' word.token rfl).2
  | present word' block' =>
      obtain ⟨sameToken, behind⟩ := List.cons.inj same
      obtain ⟨rfl, sameRest⟩ := h block' _ _ wellFormed wellFormed' behind
      rw [TokenOf.eq_of_token sameToken]
      exact ⟨rfl, sameRest⟩

theorem Stmt.AllDetermined.block
    {all : List Stmt} (h : Stmt.AllDetermined all)
    (opening : TokenOf [.openBrace]) (closing : TokenOf [.closeBrace]) :
    (Block.mk opening all closing).Determined := by
  rintro ⟨opening', others, closing'⟩ rest rest' wellFormed wellFormed' same
  simp only [Block.tokens, List.cons_append, List.append_assoc, List.nil_append] at same
  obtain ⟨sameOpening, inside⟩ := List.cons.inj same
  obtain ⟨rfl, behind⟩ := h others _ _ wellFormed wellFormed' (stops_closeBrace closing)
    (stops_closeBrace closing') inside
  obtain ⟨sameClosing, sameRest⟩ := List.cons.inj behind
  rw [TokenOf.eq_of_token sameOpening, TokenOf.eq_of_token sameClosing]
  exact ⟨rfl, sameRest⟩

theorem Stmt.allDetermined_nil :
    Stmt.AllDetermined [] := by
  intro others rest rest' _ _ stops _ same
  cases others with
  | nil =>
      exact ⟨rfl, same⟩
  | cons next more =>
      simp only [Stmt.tokensOf, List.append_assoc, List.nil_append] at same
      exact absurd same (stops.ne_tokens next _)

theorem Stmt.Determined.cons
    {first : Stmt} {following : List Stmt}
    (onFirst : first.Determined) (onFollowing : Stmt.AllDetermined following) :
    Stmt.AllDetermined (first :: following) := by
  rintro others rest rest' ⟨wellFirst, parted, wellFollowing⟩ wellFormed' stops stops' same
  rw [Stmt.tokensOf, List.append_assoc] at same
  cases others with
  | nil =>
      exact absurd same.symm (stops'.ne_tokens first _)
  | cons next more =>
      obtain ⟨wellNext, parted', wellMore⟩ := wellFormed'
      rw [Stmt.tokensOf, List.append_assoc] at same
      obtain ⟨rfl, behind⟩ := onFirst next _ _ wellFirst wellNext
        (parted.settles stops.settles) (parted'.settles stops'.settles) same
      obtain ⟨rfl, sameRest⟩ := onFollowing more _ _ wellFollowing wellMore stops stops' behind
      exact ⟨rfl, sameRest⟩

end Blocks

section Statements

variable {value : Expr} {s other : Stmt} {rest rest' : List Token}

/-- Where the same tokens begin, a statement is read in the same way. -/
theorem Stmt.handler_eq_of_tokens (same : s.tokens ++ rest = other.tokens ++ rest') :
    s.handler = other.handler := by
  obtain ⟨more, begins⟩ := s.exists_tokens_eq
  obtain ⟨more', begins'⟩ := other.exists_tokens_eq
  rw [begins, begins'] at same
  have first : s.first = other.first := (List.cons.inj same).1
  rw [← s.statement_first, first, other.statement_first]

/-- No value begins with a semicolon. -/
theorem Expr.tokens_append_ne (value : Expr) (semicolon : TokenOf [.semicolon]) :
    value.tokens ++ rest ≠ semicolon.token :: rest' := by
  intro same
  obtain ⟨more, begins⟩ := value.exists_tokens_eq
  rw [begins] at same
  have first : value.first = semicolon.token := (List.cons.inj same).1
  have handled := value.operand_first
  rw [first, semicolon.kind_eq] at handled
  cases handled

theorem Expr.Determined.binding
    (h : value.Determined) (word : TokenOf [.letWord]) (name : TokenOf [.identifier])
    (sign : TokenOf [.assign]) (semicolon : TokenOf [.semicolon]) :
    (Stmt.binding word name sign value semicolon).Determined := by
  intro other rest rest' wellFormed wellFormed' _ _ same
  have handled := Stmt.handler_eq_of_tokens same
  cases other with
  | binding word' name' sign' value' semicolon' =>
      simp only [Stmt.tokens, List.cons_append, List.append_assoc, List.nil_append] at same
      obtain ⟨sameWord, behind⟩ := List.cons.inj same
      obtain ⟨sameName, behind⟩ := List.cons.inj behind
      obtain ⟨sameSign, behind⟩ := List.cons.inj behind
      obtain ⟨rfl, rfl, sameRest⟩ := h.eq_of_terminated wellFormed wellFormed' behind
      rw [TokenOf.eq_of_token sameWord, TokenOf.eq_of_token sameName,
        TokenOf.eq_of_token sameSign]
      exact ⟨rfl, sameRest⟩
  | _ => cases handled

theorem Stmt.returningNothing_determined
    (word : TokenOf [.returnWord]) (semicolon : TokenOf [.semicolon]) :
    (Stmt.returningNothing word semicolon).Determined := by
  intro other rest rest' _ _ _ _ same
  have handled := Stmt.handler_eq_of_tokens same
  cases other with
  | returningNothing word' semicolon' =>
      obtain ⟨sameWord, behind⟩ := List.cons.inj same
      obtain ⟨sameSemicolon, sameRest⟩ := List.cons.inj behind
      rw [TokenOf.eq_of_token sameWord, TokenOf.eq_of_token sameSemicolon]
      exact ⟨rfl, sameRest⟩
  | returning word' value' semicolon' =>
      simp only [Stmt.tokens, List.cons_append, List.append_assoc, List.nil_append] at same
      exact absurd (List.cons.inj same).2.symm (value'.tokens_append_ne semicolon)
  | _ => cases handled

theorem Expr.Determined.returning
    (h : value.Determined) (word : TokenOf [.returnWord]) (semicolon : TokenOf [.semicolon]) :
    (Stmt.returning word value semicolon).Determined := by
  intro other rest rest' wellFormed wellFormed' _ _ same
  have handled := Stmt.handler_eq_of_tokens same
  simp only [Stmt.tokens, List.cons_append, List.append_assoc, List.nil_append] at same
  cases other with
  | returningNothing word' semicolon' =>
      exact absurd (List.cons.inj same).2 (value.tokens_append_ne semicolon')
  | returning word' value' semicolon' =>
      simp only [Stmt.tokens, List.cons_append, List.append_assoc, List.nil_append] at same
      obtain ⟨sameWord, behind⟩ := List.cons.inj same
      obtain ⟨rfl, rfl, sameRest⟩ := h.eq_of_terminated wellFormed wellFormed' behind
      rw [TokenOf.eq_of_token sameWord]
      exact ⟨rfl, sameRest⟩
  | _ => cases handled

/-- What is behind the value of a statement closes it, a semicolon or what settles it. -/
theorem Stmt.closes_of_expression {semicolon : Option (TokenOf [.semicolon])}
    (settled : (Stmt.expression value semicolon).IsOpen → Settles rest) :
    Closes .lowest ((semicolon.map TokenOf.token).toList ++ rest) := by
  cases semicolon with
  | none =>
      exact (settled trivial).1
  | some semicolon =>
      exact closes_semicolon semicolon

theorem Expr.Determined.expression
    (h : value.Determined) (semicolon : Option (TokenOf [.semicolon])) :
    (Stmt.expression value semicolon).Determined := by
  intro other rest rest' wellFormed wellFormed' settled settled' same
  have handled := Stmt.handler_eq_of_tokens same
  cases other with
  | expression value' semicolon' =>
      simp only [Stmt.tokens, List.append_assoc] at same
      obtain ⟨rfl, behind⟩ := h.eq_of_closes_lowest wellFormed wellFormed'
        (Stmt.closes_of_expression settled) (Stmt.closes_of_expression settled') same
      cases semicolon with
      | none =>
          cases semicolon' with
          | none =>
              exact ⟨rfl, behind⟩
          | some semicolon' =>
              obtain rfl : rest = semicolon'.token :: rest' := behind
              exact absurd semicolon'.kind_eq ((settled trivial).2 semicolon'.token rfl)
      | some semicolon =>
          cases semicolon' with
          | none =>
              obtain rfl : semicolon.token :: rest = rest' := behind
              exact absurd semicolon.kind_eq ((settled' trivial).2 semicolon.token rfl)
          | some semicolon' =>
              obtain ⟨sameToken, sameRest⟩ := List.cons.inj behind
              rw [TokenOf.eq_of_token sameToken]
              exact ⟨rfl, sameRest⟩
  | _ => cases handled

end Statements

section Trees

mutual

theorem Expr.determined :
    ∀ e : Expr, e.Determined
  | .identifier name => Expr.determined_of_operand id (Expr.identifier_determined name)
  | .integer literal => Expr.determined_of_operand id (Expr.integer_determined literal)
  | .float literal => Expr.determined_of_operand id (Expr.float_determined literal)
  | .boolean word => Expr.determined_of_operand id (Expr.boolean_determined word)
  | .unary operator right => Expr.determined_of_operand id (right.determined.unary operator)
  | .binary left operator right =>
      Expr.determined_binary left.determined right.determined operator
  | .group opening inner closing =>
      Expr.determined_of_operand id (inner.determined.group opening closing)
  | .conditional word opening condition closing consequence alternative =>
      Expr.determined_of_operand id
        (condition.determined.conditional consequence.determined alternative.determined word
          opening closing)

theorem Alternative.determined :
    ∀ a : Alternative, a.Determined
  | .absent => Alternative.absent_determined
  | .present word block => block.determined.present word

theorem Block.determined :
    ∀ b : Block, b.Determined
  | .mk opening statements closing =>
      (Stmt.allDetermined statements).block opening closing

theorem Stmt.determined :
    ∀ s : Stmt, s.Determined
  | .binding word name sign value semicolon =>
      value.determined.binding word name sign semicolon
  | .returningNothing word semicolon => Stmt.returningNothing_determined word semicolon
  | .returning word value semicolon => value.determined.returning word semicolon
  | .expression value semicolon => value.determined.expression semicolon

theorem Stmt.allDetermined :
    ∀ all : List Stmt, Stmt.AllDetermined all
  | [] => Stmt.allDetermined_nil
  | first :: rest => first.determined.cons (Stmt.allDetermined rest)

end

/-- Well-formed programs with the same tokens are the same. -/
theorem Program.eq_of_tokens
    {program other : Program} (wellFormed : program.WellFormed) (wellFormed' : other.WellFormed)
    (same : program.tokens = other.tokens) :
    program = other := by
  obtain ⟨all⟩ := program
  obtain ⟨others⟩ := other
  have ended : Stops [] := by
    simp [Stops]
  obtain ⟨rfl, _⟩ := Stmt.allDetermined all others [] [] wellFormed wellFormed' ended ended
    (by simpa [tokens] using same)
  rfl

end Trees

end Concrete
end LetLang
