import LetLang.Proofs.Parser.Keeps
import LetLang.Proofs.Token.Lossless

/-!
# What is ahead of a parser

The tokens ahead of a parser are those from the current one on, with the end of the input behind
them.  In a text each of them begins behind the one before, so the current token is the first place
at which a step can find fault, and the next one is the first place behind it.
-/

namespace LetLang

namespace Parser

section Ahead

variable {parser first second : Parser} {token : Token}

/-- The tokens from the current one on, with the end of the input behind them. -/
def ahead (parser : Parser) : List Token :=
  parser.stream.tokens ++ [.endOfInput parser.stream.stop]

theorem ahead_eq_cons (parser : Parser) :
    parser.ahead = parser.current :: parser.ahead.tail := by
  cases tokens : parser.stream.tokens with
  | nil =>
      simp [ahead, current, TokenStream.current, tokens]
  | cons token rest =>
      simp [ahead, current_of_tokens tokens, tokens]

theorem current_mem_ahead (parser : Parser) :
    parser.current ∈ parser.ahead := by
  rw [ahead_eq_cons]
  exact List.mem_cons_self

/-- A token that is not the end of the input is passed, and what was behind it is ahead. -/
theorem ahead_advance (h : parser.current.kind ≠ .eof) :
    parser.advance.ahead = parser.ahead.tail := by
  rw [ahead, ahead, tokens_of_current h]
  rfl

/-- At the end of the input there is nothing to pass. -/
theorem advance_of_nil (h : parser.stream.tokens = []) :
    parser.advance = parser := by
  obtain ⟨⟨tokens, stop⟩, _, _, _, _⟩ := parser
  obtain rfl : tokens = [] := h
  rfl

theorem next_of_nil (h : parser.stream.tokens = []) :
    parser.next = parser.current := by
  rw [show parser.next = parser.advance.current from rfl, advance_of_nil h]

theorem Extends.ahead (h : first.Extends second) :
    second.ahead <:+ first.ahead := by
  obtain ⟨passed, whole⟩ := h.tokens
  exact ⟨passed, by rw [Parser.ahead, Parser.ahead, h.stop, ← whole, List.append_assoc]⟩

theorem next_mem_ahead (parser : Parser) :
    parser.next ∈ parser.ahead :=
  (Extends.advance parser).ahead.subset (current_mem_ahead parser.advance)

end Ahead

section Order

variable {parser first second : Parser} {token : Token}

/-- Each token ahead begins behind the one before. -/
def Ordered (parser : Parser) : Prop :=
  parser.ahead.Pairwise fun token later => token.start < later.start

theorem Ordered.extends (h : first.Ordered) (extension : first.Extends second) :
    second.Ordered :=
  List.Pairwise.sublist extension.ahead.sublist h

theorem Ordered.current_le (h : parser.Ordered) (mem : token ∈ parser.ahead) :
    parser.current.start ≤ token.start := by
  rw [Ordered, ahead_eq_cons, List.pairwise_cons] at h
  rw [ahead_eq_cons] at mem
  rcases List.mem_cons.mp mem with rfl | later
  · exact Nat.le_refl _
  · exact Nat.le_of_lt (h.1 token later)

theorem Ordered.current_le_next (h : parser.Ordered) :
    parser.current.start ≤ parser.next.start :=
  h.current_le (next_mem_ahead parser)

end Order

/-- A parser of the language before tokens as they are found in a text. -/
structure Regular (parser : Parser) : Prop where
  handlers : parser.handlers = .standard
  spelled : ∀ token ∈ parser.stream.tokens, Token.Spelled token.kind token.literal.toList
  ordered : parser.Ordered

section Regular

variable {first second : Parser}

theorem Regular.extends (h : first.Regular) (extension : first.Extends second) :
    second.Regular :=
  ⟨extension.handlers.trans h.handlers,
    fun token mem => h.spelled token (extension.mem_tokens mem),
    h.ordered.extends extension⟩

/-- Only the tokens ahead and the handlers matter. -/
theorem Regular.keep (h : first.Regular)
    (stream : second.stream = first.stream) (handlers : second.handlers = first.handlers) :
    second.Regular := by
  refine ⟨handlers.trans h.handlers, stream ▸ h.spelled, ?_⟩
  rw [Ordered, Parser.ahead, stream]
  exact h.ordered

theorem Regular.advance (h : first.Regular) :
    first.advance.Regular :=
  h.extends (Extends.advance first)

end Regular

/-- Only the end of the input is of its kind. -/
theorem Regular.tokens_eq_nil {parser : Parser}
    (h : parser.Regular) (atEnd : parser.current.kind = .eof) :
    parser.stream.tokens = [] :=
  tokens_eq_nil_of_current (fun token mem => (h.spelled token mem).spells.ne_eof) atEnd

theorem ahead_ofSource (source : String) :
    (ofSource source).ahead = tokenize source :=
  rfl

theorem regular_ofSource (source : String) :
    (ofSource source).Regular := by
  refine ⟨rfl, fun _ => Token.spelled_of_mem_scan, ?_⟩
  have ordered := (Token.segments_scan 0 source.toList).ordered (Nat.zero_add _)
  exact ordered.2.imp fun before => Nat.lt_of_lt_of_le before.1 before.2

end Parser
end LetLang
