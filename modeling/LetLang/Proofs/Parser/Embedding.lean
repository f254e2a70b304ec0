import LetLang.Proofs.Syntax.Relocate
import LetLang.Proofs.Parser.Keeps

/-!
# One parser inside another

Two parsers are compared, an inner one and an outer one.  The outer one has the tokens of the inner
one, moved to other bytes, and either its input ends with them, or the last of them is a semicolon
and there is more behind it.  `Embedding.Links` says that the one stands where the other stands.

As long as neither looks behind the semicolon, whatever the inner parser does the outer one does as
well: `Embedding.Matches` compares the ends of two steps.  There is one way out.  A block that the
inner parser finds no end of may find one in the outer text; but then the inner parser ends in a
diagnostic that says so, or has recorded it.
-/

namespace LetLang

namespace Parser

/-- A block was not closed before the end of the input, and this has been recorded. -/
def Unclosed (parser : Parser) : Prop :=
  ∃ diagnostic ∈ parser.diagnostics.toList,
    diagnostic.cause = .unexpectedToken .closeBrace .eof

section Unclosed

variable {first second : Parser}

theorem Unclosed.extends
    (h : first.Unclosed) (extension : first.Extends second) :
    second.Unclosed := by
  obtain ⟨diagnostic, mem, cause⟩ := h
  exact ⟨diagnostic, extension.diagnostics.subset mem, cause⟩

theorem unclosed_record
    {diagnostic : Diagnostic} {parser : Parser}
    (h : diagnostic.cause = .unexpectedToken .closeBrace .eof ∨ parser.Unclosed) :
    (parser.record diagnostic).Unclosed := by
  rcases h with cause | unclosed
  · exact ⟨diagnostic, by simp [record], cause⟩
  · exact unclosed.extends (Extends.record diagnostic parser)

end Unclosed

end Parser

/-- A step has ended in the diagnostic of a block that is not closed, or this has been recorded. -/
def Outcome.Unclosed {α : Type} (outcome : Outcome α) : Prop :=
  outcome.Meets
    (fun _ ended => ended.Unclosed)
    (fun diagnostic ended =>
      diagnostic.cause = .unexpectedToken .closeBrace .eof ∨ ended.Unclosed)

/-- How the input of one parser lies in that of another: where its bytes are found there, what has
been recorded before it, where the outer input ends, and which tokens are behind the inner one, or
`none` where both end. -/
structure Embedding where
  place : Nat → Nat
  earlier : List Diagnostic
  stop : Nat
  behind? : Option (List Token)

namespace Embedding

/-- Both inputs end at one place, or that of the inner parser ends in a semicolon. -/
def Joins (embedding : Embedding) (inner : Parser) : Prop :=
  match embedding.behind? with
  | none => embedding.stop = embedding.place inner.stream.stop
  | some _ => ∃ front last, inner.stream.tokens = front ++ [last] ∧ last.kind = .semicolon

/-- The outer parser stands where the inner one stands. -/
structure Links (embedding : Embedding) (inner outer : Parser) : Prop where
  tokens : outer.stream.tokens =
    inner.stream.tokens.map (Token.relocate embedding.place) ++ embedding.behind?.getD []
  joins : embedding.Joins inner
  stop : outer.stream.stop = embedding.stop
  innerHandlers : inner.handlers = .standard
  outerHandlers : outer.handlers = .standard
  depth : outer.depth = inner.depth
  diagnostics : outer.diagnostics.toList =
    embedding.earlier ++ inner.diagnostics.toList.map (Diagnostic.relocate embedding.place)

/-- The inner parser has passed its last token, a semicolon, and the outer one stands before what
is behind it. -/
structure Crosses (embedding : Embedding) (inner outer : Parser) : Prop where
  behind : embedding.behind? = some outer.stream.tokens
  passed : inner.stream.tokens = []
  stop : outer.stream.stop = embedding.stop
  outerHandlers : outer.handlers = .standard
  depth : outer.depth = inner.depth
  diagnostics : outer.diagnostics.toList =
    embedding.earlier ++ inner.diagnostics.toList.map (Diagnostic.relocate embedding.place)

variable {embedding : Embedding} {inner outer : Parser}

section Links

theorem Crosses.more (h : embedding.Crosses inner outer) :
    embedding.behind? ≠ none := by
  rw [h.behind]
  exact Option.some_ne_none _

theorem Links.current (h : embedding.Links inner outer) :
    outer.current = inner.current.relocate embedding.place := by
  have tokens := h.tokens
  have joins := h.joins
  cases left : inner.stream.tokens with
  | nil =>
      cases behind : embedding.behind? with
      | none =>
          rw [Joins, behind] at joins
          simp only [left, behind, List.map_nil, List.nil_append, Option.getD_none] at tokens
          simp [Parser.current, TokenStream.current, left, tokens, h.stop, joins,
            Token.relocate_endOfInput]
      | some more =>
          rw [Joins, behind] at joins
          obtain ⟨front, last, whole, _⟩ := joins
          simp [left] at whole
  | cons token rest =>
      rw [left] at tokens
      rw [Parser.current_of_tokens left]
      exact Parser.current_of_tokens tokens

/-- Behind a token the parsers stand at one place again, unless this was the last semicolon. -/
theorem Links.advance_cases (h : embedding.Links inner outer) :
    embedding.Links inner.advance outer.advance ∨
      (inner.current.kind = .semicolon ∧ embedding.Crosses inner.advance outer.advance) := by
  have tokens := h.tokens
  have joins := h.joins
  cases behind : embedding.behind? with
  | none =>
      refine .inl ⟨?_, ?_, h.stop, h.innerHandlers, h.outerHandlers, h.depth, h.diagnostics⟩
      · simp only [behind, Option.getD_none, List.append_nil] at tokens
        simp [Parser.behind, tokens, behind]
      · rw [Joins, behind] at joins ⊢
        exact joins
  | some more =>
      rw [Joins, behind] at joins
      obtain ⟨front, last, whole, isSemicolon⟩ := joins
      simp only [whole, behind, Option.getD_some] at tokens
      cases front with
      | nil =>
          refine .inr ⟨?_, ?_, ?_, h.stop, h.outerHandlers, h.depth, h.diagnostics⟩
          · rw [Parser.current_of_tokens whole]
            exact isSemicolon
          · simp [Parser.behind, tokens, behind]
          · simp [Parser.behind, whole]
      | cons first front =>
          refine .inl ⟨?_, ?_, h.stop, h.innerHandlers, h.outerHandlers, h.depth, h.diagnostics⟩
          · simp [Parser.behind, tokens, behind, whole]
          · rw [Joins, behind]
            exact ⟨front, last, by simp [Parser.behind, whole], isSemicolon⟩

theorem Links.advance
    (h : embedding.Links inner outer) (inside : inner.current.kind ≠ .semicolon) :
    embedding.Links inner.advance outer.advance := by
  rcases h.advance_cases with links | ⟨semicolon, _⟩
  · exact links
  · exact absurd semicolon inside

theorem Links.next
    (h : embedding.Links inner outer) (inside : inner.current.kind ≠ .semicolon) :
    outer.next = inner.next.relocate embedding.place :=
  (h.advance inside).current

theorem Links.note (h : embedding.Links inner outer) (event event' : Event) :
    embedding.Links (inner.note event) (outer.note event') :=
  ⟨h.tokens, h.joins, h.stop, h.innerHandlers, h.outerHandlers, h.depth, h.diagnostics⟩

theorem Links.record (h : embedding.Links inner outer) (diagnostic : Diagnostic) :
    embedding.Links (inner.record diagnostic)
      (outer.record (diagnostic.relocate embedding.place)) :=
  ⟨h.tokens, h.joins, h.stop, h.innerHandlers, h.outerHandlers, h.depth,
    by simp [Parser.record, h.diagnostics]⟩

end Links

section Matches

variable {α β : Type}

/-- The ends of two steps are the same but for their places.  Where the inner step is done, the
token that it has stopped at is of a kind for which a condition holds. -/
inductive Mirrors (embedding : Embedding) (relocate : α → α) (stops : Kind → Prop) :
    Outcome α → Outcome α → Prop
  | done {value : α} {inner outer : Parser} :
      embedding.Links inner outer → stops inner.current.kind →
      Mirrors embedding relocate stops (.done value inner) (.done (relocate value) outer)
  | failed {diagnostic : Diagnostic} {inner outer : Parser} :
      embedding.Links inner outer →
      Mirrors embedding relocate stops (.failed diagnostic inner)
        (.failed (diagnostic.relocate embedding.place) outer)
  | innerExhausted (outcome : Outcome α) :
      Mirrors embedding relocate stops .exhausted outcome
  | outerExhausted (outcome : Outcome α) :
      Mirrors embedding relocate stops outcome .exhausted

/-- The ends of two steps are the same but for their places, unless there is more behind the inner
input and the inner step was led astray. -/
def MatchesUnless (embedding : Embedding) (astray : Outcome α → Outcome α → Prop)
    (relocate : α → α) (stops : Kind → Prop) (outcome outcome' : Outcome α) : Prop :=
  (embedding.behind? ≠ none ∧ astray outcome outcome') ∨
    embedding.Mirrors relocate stops outcome outcome'

/-- The ends of two steps are the same but for their places, unless there is more behind the inner
input and the inner step has met a block that is not closed. -/
abbrev Matches (embedding : Embedding) (relocate : α → α) (stops : Kind → Prop)
    (outcome outcome' : Outcome α) : Prop :=
  embedding.MatchesUnless (fun outcome _ => outcome.Unclosed) relocate stops outcome outcome'

variable {relocate : α → α} {relocate' : β → β} {stops stops' : Kind → Prop}
variable {astray : Outcome α → Outcome α → Prop} {astray' : Outcome β → Outcome β → Prop}

theorem matches_exhausted (outcome : Outcome α) :
    embedding.MatchesUnless astray relocate stops outcome .exhausted :=
  .inr (.outerExhausted outcome)

theorem matches_pure
    {value value' : α}
    (same : value' = relocate value) (links : embedding.Links inner outer)
    (stopped : stops inner.current.kind) :
    embedding.Matches relocate stops ((pure value : Step α) inner)
      ((pure value' : Step α) outer) := by
  rw [same]
  exact .inr (.done links stopped)

theorem matches_fail
    (cause : Cause) (position : Nat) (links : embedding.Links inner outer) :
    embedding.Matches relocate stops ((Step.fail cause position : Step α) inner)
      ((Step.fail cause (embedding.place position) : Step α) outer) :=
  .inr (.failed links)

/-- A block that is not closed stays so, whatever follows. -/
theorem unclosed_bind
    {step : Step α} {next : α → Step β}
    (h : (step inner).Unclosed) (onward : ∀ value, (next value).Onward) :
    ((step >>= next) inner).Unclosed := by
  refine Step.meets_bind h ?_ (fun _ _ unclosed => unclosed)
  intro value ended unclosed
  exact (onward value ended).mono
    (fun _ _ extension => unclosed.extends extension)
    (fun _ _ extension => .inr (unclosed.extends extension))

/-- Steps that do the same go on with values that are the same. -/
theorem mirrors_bind
    {step step' : Step α} {next next' : α → Step β}
    (first : embedding.Mirrors relocate stops (step inner) (step' outer))
    (rest : ∀ value innerEnd outerEnd,
      embedding.Links innerEnd outerEnd → stops innerEnd.current.kind →
      embedding.MatchesUnless astray' relocate' stops' (next value innerEnd)
        (next' (relocate value) outerEnd)) :
    embedding.MatchesUnless astray' relocate' stops'
      ((step >>= next) inner) ((step' >>= next') outer) := by
  show embedding.MatchesUnless astray' relocate' stops' (step.andThen next inner)
    (step'.andThen next' outer)
  unfold Step.andThen
  -- `Mirrors` can be taken apart only where both of its outcomes are variables.
  generalize step inner = outcome, step' outer = outcome' at first ⊢
  cases first with
  | done links stopped =>
      exact rest _ _ _ links stopped
  | failed links =>
      exact .inr (.failed links)
  | innerExhausted =>
      exact .inr (.innerExhausted _)
  | outerExhausted =>
      exact matches_exhausted _

theorem matches_bind
    {step step' : Step α} {next next' : α → Step β}
    (first : embedding.Matches relocate stops (step inner) (step' outer))
    (onward : ∀ value, (next value).Onward)
    (rest : ∀ value innerEnd outerEnd,
      embedding.Links innerEnd outerEnd → stops innerEnd.current.kind →
      embedding.Matches relocate' stops' (next value innerEnd)
        (next' (relocate value) outerEnd)) :
    embedding.Matches relocate' stops' ((step >>= next) inner) ((step' >>= next') outer) := by
  rcases first with ⟨more, unclosed⟩ | mirrors
  · exact .inl ⟨more, unclosed_bind unclosed onward⟩
  · exact mirrors_bind mirrors rest

theorem matches_expect_bind
    {kind : Kind} {next next' : Token → Step β}
    (links : embedding.Links inner outer) (other : kind ≠ .semicolon)
    (rest : embedding.Links inner.advance outer.advance →
      embedding.Matches relocate' stops' (next inner.current inner.advance)
        (next' (inner.current.relocate embedding.place) outer.advance)) :
    embedding.Matches relocate' stops' ((Step.expect kind >>= next) inner)
      ((Step.expect kind >>= next') outer) := by
  have current := links.current
  have kinds : outer.current.kind = inner.current.kind := by
    rw [current, Token.kind_relocate]
  by_cases same : inner.current.kind = kind
  · rw [Step.expect_bind_of_kind same, Step.expect_bind_of_kind (kinds.trans same), current]
    exact rest (links.advance (same ▸ other))
  · rw [Step.expect_bind_of_ne same, Step.expect_bind_of_ne (kinds ▸ same), current]
    exact .inr (.failed links)

theorem matches_expectNext_bind
    {kind : Kind} {next next' : Token → Step β}
    (links : embedding.Links inner outer) (inside : inner.current.kind ≠ .semicolon)
    (rest : embedding.Links inner.advance outer.advance → inner.advance.current.kind = kind →
      embedding.Matches relocate' stops' (next inner.next inner.advance)
        (next' (inner.next.relocate embedding.place) outer.advance)) :
    embedding.Matches relocate' stops' ((Step.expectNext kind >>= next) inner)
      ((Step.expectNext kind >>= next') outer) := by
  have ahead := links.next inside
  have kinds : outer.next.kind = inner.next.kind := by
    rw [ahead, Token.kind_relocate]
  by_cases same : inner.next.kind = kind
  · rw [Step.expectNext_bind_of_kind same, Step.expectNext_bind_of_kind (kinds.trans same), ahead]
    exact rest (links.advance inside) same
  · rw [Step.expectNext_bind_of_ne same, Step.expectNext_bind_of_ne (kinds ▸ same), ahead]
    exact .inr (.failed links)

theorem matches_nested
    {step step' : Step α}
    (links : embedding.Links inner outer)
    (inside : embedding.Links
        { inner with depth := inner.depth + 1 } { outer with depth := outer.depth + 1 } →
      embedding.Matches relocate stops
        (step { inner with depth := inner.depth + 1 })
        (step' { outer with depth := outer.depth + 1 })) :
    embedding.Matches relocate stops (Step.nested step inner) (Step.nested step' outer) := by
  have deeper : embedding.Links
      { inner with depth := inner.depth + 1 } { outer with depth := outer.depth + 1 } :=
    ⟨links.tokens, links.joins, links.stop, links.innerHandlers, links.outerHandlers,
      congrArg (· + 1) links.depth, links.diagnostics⟩
  have back {innerEnd outerEnd : Parser} (h : embedding.Links innerEnd outerEnd) :
      embedding.Links innerEnd.leave outerEnd.leave :=
    ⟨h.tokens, h.joins, h.stop, h.innerHandlers, h.outerHandlers,
      congrArg (· - 1) h.depth, h.diagnostics⟩
  unfold Step.nested Parser.enter
  by_cases room : inner.depth < Parser.nestingLimit
  · simp only [room, links.depth.symm ▸ room, if_true]
    rcases inside deeper with ⟨more, unclosed⟩ | mirrors
    · refine .inl ⟨more, ?_⟩
      generalize step { inner with depth := inner.depth + 1 } = outcome at unclosed ⊢
      cases outcome <;> exact unclosed
    · refine .inr ?_
      generalize step { inner with depth := inner.depth + 1 } = outcome,
        step' { outer with depth := outer.depth + 1 } = outcome' at mirrors ⊢
      cases mirrors with
      | done links stopped =>
          exact .done (back links) stopped
      | failed links =>
          exact .failed (back links)
      | innerExhausted =>
          exact .innerExhausted _
      | outerExhausted =>
          exact .outerExhausted _
  · simp only [room, links.depth.symm ▸ room, if_false, links.current]
    exact .inr (.failed links)

theorem matches_recovering
    {step step' : Step α}
    (h : embedding.Matches relocate stops (step inner) (step' outer)) :
    embedding.Matches (Option.map relocate) (fun _ => True)
      (Step.recovering step inner) (Step.recovering step' outer) := by
  unfold Step.recovering
  generalize step inner = outcome, step' outer = outcome' at h ⊢
  rcases h with ⟨more, unclosed⟩ | mirrors
  · refine .inl ⟨more, ?_⟩
    cases outcome with
    | done value ended =>
        exact unclosed
    | failed diagnostic ended =>
        exact Parser.unclosed_record unclosed
    | exhausted =>
        trivial
  · refine .inr ?_
    cases mirrors with
    | done links stopped =>
        exact @Mirrors.done _ _ (Option.map relocate) _ (some _) _ _ links trivial
    | failed links =>
        exact @Mirrors.done _ _ (Option.map relocate) _ none _ _ (links.record _) trivial
    | innerExhausted =>
        exact .innerExhausted _
    | outerExhausted =>
        exact .outerExhausted _

end Matches

end Embedding

end LetLang
