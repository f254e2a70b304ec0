import LetLang.Parser.Run

/-!
# What a step sees and what it leaves alone

Of the tokens a step sees the two that are next; what is known of the tokens behind says which they
are.  Most steps leave all of a parser alone but its place in the tokens and its trace.  And a
parsed text is what the loop over statements ends in, so that what is known of the one is known of
the other.
-/

namespace LetLang

namespace Grammar

open Step

/-- Where the statements of a block end, nothing is read. -/
theorem blockStatements_of_last
    {parser : Parser} (fuel : Nat) (found : List Stmt)
    (last : parser.current.kind = .closeBrace ∨ parser.current.kind = .eof) :
    (blockStatements fuel found parser).Meets
      (fun all ended => all = found.reverse ∧ ended = parser) (fun _ _ => False) := by
  cases fuel with
  | zero =>
      trivial
  | succ fuel =>
      simp only [blockStatements, current_bind, last, if_true]
      exact ⟨rfl, rfl⟩

end Grammar

namespace Parser

section Window

variable {parser : Parser} {token : Token} {rest : List Token}

/-- The tokens behind the current one. -/
def behind (parser : Parser) : List Token :=
  parser.stream.tokens.tail

@[simp] theorem tokens_advance :
    parser.advance.stream.tokens = parser.behind :=
  rfl

theorem current_of_tokens
    (h : parser.stream.tokens = token :: rest) :
    parser.current = token := by
  simp [current, TokenStream.current, h]

theorem behind_of_tokens
    (h : parser.stream.tokens = token :: rest) :
    parser.behind = rest := by
  simp [behind, h]

theorem next_of_behind
    (h : parser.behind = token :: rest) :
    parser.next = token := by
  rw [behind] at h
  simp [next, TokenStream.next, h]

theorem current_advance_of_behind
    (h : parser.behind = token :: rest) :
    parser.advance.current = token :=
  current_of_tokens h

theorem behind_advance_of_behind
    (h : parser.behind = token :: rest) :
    parser.advance.behind = rest :=
  behind_of_tokens h

theorem current_kind_of_tokens_nil
    (h : parser.stream.tokens = []) :
    parser.current.kind = .eof := by
  simp [current, TokenStream.current, h, Token.endOfInput]

theorem next_kind_of_behind_nil
    (h : parser.behind = []) :
    parser.next.kind = .eof := by
  rw [behind] at h
  simp [next, TokenStream.next, h, Token.endOfInput]

theorem tokens_of_current
    (h : parser.current.kind ≠ .eof) :
    parser.stream.tokens = parser.current :: parser.behind := by
  cases tokens : parser.stream.tokens with
  | nil =>
      exact absurd (current_kind_of_tokens_nil tokens) h
  | cons token rest =>
      rw [current_of_tokens tokens, behind_of_tokens tokens]

/-- Where no token has the kind of the end of the input, none is left there. -/
theorem tokens_eq_nil_of_current
    (noEnd : ∀ token ∈ parser.stream.tokens, token.kind ≠ .eof)
    (h : parser.current.kind = .eof) :
    parser.stream.tokens = [] := by
  cases left : parser.stream.tokens with
  | nil =>
      rfl
  | cons token rest =>
      rw [current_of_tokens left] at h
      rw [left] at noEnd
      exact absurd h (noEnd token List.mem_cons_self)

theorem behind_of_next
    (h : parser.next.kind ≠ .eof) :
    parser.behind = parser.next :: parser.advance.behind := by
  cases tokens : parser.behind with
  | nil =>
      exact absurd (next_kind_of_behind_nil tokens) h
  | cons token rest =>
      rw [next_of_behind tokens, behind_advance_of_behind tokens]

end Window

/-- All of a parser is as it was, but for its place in the tokens and its trace. -/
structure Keeps (begun ended : Parser) : Prop where
  stop : ended.stream.stop = begun.stream.stop
  handlers : ended.handlers = begun.handlers
  depth : ended.depth = begun.depth
  diagnostics : ended.diagnostics = begun.diagnostics

namespace Keeps

variable {first second third : Parser}

theorem refl (parser : Parser) :
    parser.Keeps parser :=
  ⟨rfl, rfl, rfl, rfl⟩

theorem trans
    (early : first.Keeps second) (late : second.Keeps third) :
    first.Keeps third :=
  ⟨late.stop.trans early.stop,
    late.handlers.trans early.handlers,
    late.depth.trans early.depth,
    late.diagnostics.trans early.diagnostics⟩

theorem advance (h : first.Keeps second) :
    first.Keeps second.advance :=
  ⟨h.stop, h.handlers, h.depth, h.diagnostics⟩

/-- What keeps the parser behind a token keeps that before it. -/
theorem ofAdvance (h : first.advance.Keeps second) :
    first.Keeps second :=
  ⟨h.stop, h.handlers, h.depth, h.diagnostics⟩

end Keeps

/-- A parsed text is what the loop over statements ends in. -/
theorem exists_statements_eq_done (source : String) :
    ∃ fuel event ended,
      Grammar.statements fuel [] ((ofSource source).note event) =
        .done (parse source).program.statements ended ∧
      (parse source).diagnostics = ended.diagnostics.toList := by
  let event := Event.programBegun (ofSource source).stream.stop
  obtain ⟨all, ended, outcome⟩ := ((ofSource source).note event).statements_eq_done
  refine ⟨((ofSource source).note event).fuel, event, ended, ?_, ?_⟩ <;>
    simp only [parse, readProgram]
  · rw [readStatements_of_done outcome]
    exact outcome
  · rw [readStatements_of_done outcome]
    rfl

/-- What is known of the end of the loop over statements is known of a parsed text. -/
theorem exists_ended_of_meets
    {source : String} {done : List Stmt → Parser → Prop} {failed : Diagnostic → Parser → Prop}
    (h : ∀ fuel event,
      (Grammar.statements fuel [] ((ofSource source).note event)).Meets done failed) :
    ∃ ended : Parser, done (parse source).program.statements ended ∧
      (parse source).diagnostics = ended.diagnostics.toList := by
  obtain ⟨fuel, event, ended, outcome, recorded⟩ := exists_statements_eq_done source
  have holds := h fuel event
  rw [outcome] at holds
  exact ⟨ended, holds, recorded⟩

end Parser
end LetLang
