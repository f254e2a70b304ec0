import LetLang.Proofs.Parser.Completeness
import LetLang.Proofs.Parser.Layout
import LetLang.Proofs.Parser.Viability

/-!
# A text up to its first fault can be completed

**Input.** A source text, and the first diagnostic of its parse.

**Result.** `parse_completes`: there is another text that begins with the same tokens, up to the one
at which the diagnostic is, and is parsed without any diagnostic.  Two causes are left out.  Where
the limit on nesting is met, and where a conditional lacks its opening parenthesis, the tokens
before the diagnostic may have no room for what they need.

The other text has one space behind each of its tokens.  So its tokens do not have the places that
they had in the tree, and it is the run on numbered tokens that says that this makes no difference.
-/

namespace LetLang

open Text

namespace Token

/-- The texts of some tokens, with a space behind each of them. -/
def spaced : List Token → List Char
  | [] => []
  | token :: rest => token.literal.toList ++ ' ' :: spaced rest

/-- Tokens that are spelled are found again in their text. -/
theorem scan_spaced {tokens : List Token} (spelled : ∀ token ∈ tokens, token.IsSpelled)
    (offset : Nat) :
    (scan offset (spaced tokens)).map look = tokens.map look := by
  induction tokens generalizing offset with
  | nil =>
      rw [spaced, scan_nil]
  | cons token rest ih =>
      obtain ⟨first, others⟩ := List.forall_mem_cons.mp spelled
      have apart : ∀ c ∈ (' ' :: spaced rest).head?, token.kind.fuses c = false := by
        rintro c ⟨⟩
        exact Kind.fuses_of_separates (by decide) (by decide)
      rw [spaced, first.scan_append apart, scan_blank (by decide), List.map_cons, List.map_cons,
        ih others, String.ofList_toList]
      rfl

end Token

namespace Parser

/-- A parser of the language before some tokens. -/
def listed (tokens : List Token) : Parser :=
  { stream := { tokens, stop := 0 }
    handlers := .standard
    depth := 0
    diagnostics := #[]
    trace := #[] }

variable {source : String} {tokens : List Token}

/-- The numbered tokens of a text stand to tokens that look the same as one text to another. -/
theorem links_listed
    (same : (Token.scan 0 source.toList).map Token.look = tokens.map Token.look) :
    Embedding.Links ⟨Token.placeAmong tokens (.endOfInput 0), [], 0, none⟩ (bare source)
      (listed tokens) := by
  have whole := map_relocate_bare same [] (.endOfInput 0)
  have stop : 0 =
      Token.placeAmong tokens (.endOfInput 0) (2 * (Token.scan 0 source.toList).length) := by
    have count : (Token.scan 0 source.toList).length = tokens.length := by
      simpa using congrArg List.length same
    rw [count, Token.placeAmong_even, List.getElem?_eq_none (Nat.le_refl _)]
    rfl
  rw [List.append_nil] at whole
  exact ⟨whole.symm.trans (List.append_nil _).symm, stop, rfl, rfl, rfl, rfl, rfl⟩

/-- A text with tokens that look like those of a well-formed program is parsed without any
diagnostic, if no expression of the program is nested too deeply. -/
theorem diagnostics_eq_nil_of_look_eq
    {all : List Concrete.Stmt} (wellFormed : Concrete.Stmt.AllWellFormed all)
    (few : Concrete.Stmt.nestingOf all ≤ nestingLimit)
    (same : (Token.scan 0 source.toList).map Token.look =
      (Concrete.Stmt.tokensOf all).map Token.look) :
    (parse source).diagnostics = [] := by
  let outer := listed (Concrete.Stmt.tokensOf all)
  have before : outer.Before (Concrete.Stmt.tokensOf all) [] :=
    ⟨rfl, (List.append_nil _).symm, Nat.zero_le _⟩
  have fits : outer.Fits (Concrete.Stmt.nestingOf all) := by
    simpa [Fits, outer, listed] using few
  obtain ⟨read, outerEnd, done'⟩ := outer.statements_eq_done
  have within : (Grammar.statements outer.fuel [] outer).Within outer _ _ :=
    Concrete.Stmt.statements_within wellFormed before
  obtain ⟨_, innerEnd, done, _, recorded⟩ := exists_bare source (Nat.le_refl (bare source).fuel)
  rw [done'] at within
  rcases within with ⟨_, _, keeps⟩ | ⟨full, _⟩
  · have nothing := (Embedding.statements_of_links rfl (links_listed same) done done').2
    rw [keeps.diagnostics] at nothing
    rw [recorded, List.map_eq_nil_iff]
    exact List.map_eq_nil_iff.mp nothing.symm
  · exact absurd fits full

end Parser

/-- Tokens with which a well-formed program may begin are those with which some text does that is
parsed without any diagnostic. -/
theorem Concrete.Stmt.AllViable.exists_text
    {front : List Token} (viable : Concrete.Stmt.AllViable Parser.nestingLimit front)
    (spelled : ∀ token ∈ front, token.IsSpelled) :
    ∃ text : String,
      ((tokenize text).take front.length).map Token.look = front.map Token.look ∧
        (parse text).diagnostics = [] := by
  obtain ⟨all, ⟨more, completes, spelledMore⟩, wellFormed, few, _⟩ := viable
  let text := String.ofList (Token.spaced (Concrete.Stmt.tokensOf all))
  have looks : (Token.scan 0 text.toList).map Token.look =
      (Concrete.Stmt.tokensOf all).map Token.look := by
    rw [String.toList_ofList]
    refine Token.scan_spaced ?_ 0
    rw [completes]
    exact List.forall_mem_append.mpr ⟨spelled, spelledMore⟩
  refine ⟨text, ?_, Parser.diagnostics_eq_nil_of_look_eq wellFormed few looks⟩
  have whole : (tokenize text).map Token.look =
      front.map Token.look ++ (more.map Token.look ++ [(.eof, "")]) := by
    rw [tokenize, List.map_append, looks, completes, List.map_append, List.append_assoc]
    rfl
  rw [List.map_take, whole, ← List.length_map Token.look, List.take_left]

/-- Tokens that begin at one place are one token. -/
theorem Token.number_unique {source : String} {number number' : Nat} {token token' : Token}
    (found : (tokenize source)[number]? = some token)
    (found' : (tokenize source)[number']? = some token') (same : token.start = token'.start) :
    number = number' := by
  have ordered := (Parser.regular_ofSource source).ordered
  rw [Parser.Ordered, Parser.ahead_ofSource, List.pairwise_iff_getElem] at ordered
  obtain ⟨inside, rfl⟩ := List.getElem?_eq_some_iff.mp found
  obtain ⟨inside', rfl⟩ := List.getElem?_eq_some_iff.mp found'
  rcases Nat.lt_trichotomy number number' with before | rfl | behind
  · exact absurd same (Nat.ne_of_lt (ordered number number' inside inside' before))
  · rfl
  · exact absurd same.symm (Nat.ne_of_lt (ordered number' number inside' inside behind))

/-- Every cause can be mended but the two that are left out. -/
theorem Cause.mendable_of_ne {cause : Cause}
    (shallow : ∀ limit, cause ≠ .nestingTooDeep limit)
    (opened : ∀ kind, cause ≠ .unexpectedToken .openParen kind) :
    cause.Mendable := by
  cases cause with
  | unexpectedToken expected received =>
      rintro rfl
      exact opened received rfl
  | nestingTooDeep limit =>
      exact shallow limit rfl
  | noOperand _ | badInteger _ _ | badFloat _ =>
      trivial

/-- What is recorded first, if its cause can be mended, is at a token before which all tokens are
those with which a well-formed program may begin. -/
theorem exists_viable_of_first
    {source : String} {diagnostic : Diagnostic}
    (first : (parse source).diagnostics.head? = some diagnostic)
    (mendable : diagnostic.cause.Mendable) :
    ∃ front token rest, tokenize source = front ++ token :: rest ∧
      diagnostic.position = token.start ∧
      Concrete.Stmt.AllViable Parser.nestingLimit front := by
  obtain ⟨fuel, event, ended, outcome, recorded⟩ := Parser.exists_statements_eq_done source
  let begun := (Parser.ofSource source).note event
  have ready : begun.Ready := ⟨rfl, Nat.zero_le _⟩
  have mends : (Grammar.statements fuel [] begun).Mends begun
      (Concrete.Stmt.AllViable begun.levels) :=
    Concrete.statements_mends ready (Nat.succ_pos 99)
  rw [outcome] at mends
  rw [recorded] at first
  obtain ⟨later, whole⟩ := List.head?_eq_some_iff.mp first
  exact mends diagnostic later whole mendable

/-- The first diagnostic is not premature.  It is at a token of the text, and unless it is about the
limit on nesting or the opening parenthesis of a conditional, there is another text that begins with
the same tokens up to this one and is parsed without any diagnostic. -/
theorem parse_completes
    (source : String) (diagnostic : Diagnostic)
    (first : (parse source).diagnostics.head? = some diagnostic)
    (shallow : ∀ limit, diagnostic.cause ≠ .nestingTooDeep limit)
    (opened : ∀ kind, diagnostic.cause ≠ .unexpectedToken .openParen kind) :
    (∃ (number : Nat) (token : Token), (tokenize source)[number]? = some token ∧
        token.start = diagnostic.position) ∧
      ∀ (number : Nat) (token : Token), (tokenize source)[number]? = some token →
        token.start = diagnostic.position →
        ∃ completed : String,
          ((tokenize completed).take number).map Token.look =
              ((tokenize source).take number).map Token.look ∧
            (parse completed).diagnostics = [] := by
  obtain ⟨front, fault, rest, whole, position, viable⟩ :=
    exists_viable_of_first first (Cause.mendable_of_ne shallow opened)
  have found : (tokenize source)[front.length]? = some fault := by
    rw [whole, List.getElem?_append_right (Nat.le_refl _), Nat.sub_self]
    rfl
  have spelled : ∀ token ∈ front, token.IsSpelled := by
    intro token mem
    have scanned : Token.scan 0 source.toList = front ++ (fault :: rest).dropLast := by
      rw [← tokenize_dropLast, whole, List.dropLast_append_of_ne_nil (List.cons_ne_nil _ _)]
    exact Token.spelled_of_mem_scan (scanned ▸ List.mem_append_left _ mem)
  refine ⟨⟨front.length, fault, found, position.symm⟩, fun number token found' here => ?_⟩
  obtain rfl : number = front.length :=
    Token.number_unique found' found (here.trans position)
  rw [whole, List.take_left]
  exact viable.exists_text spelled

/-- A block in which a binding has got as far as a sign before its value. -/
theorem parse_completes_binding :
    (parse "if (a) \x7b let x = -").diagnostics.head? = some ⟨.noOperand .eof, 18⟩ ∧
      (tokenize "if (a) \x7b let x = -")[9]? = some (.endOfInput 18) ∧
        ∃ completed : String,
          ((tokenize completed).take 9).map Token.look =
              ((tokenize "if (a) \x7b let x = -").take 9).map Token.look ∧
            (parse completed).diagnostics = [] := by
  have first : (parse "if (a) \x7b let x = -").diagnostics.head? =
      some ⟨.noOperand .eof, 18⟩ := by
    decide +kernel
  have found : (tokenize "if (a) \x7b let x = -")[9]? = some (.endOfInput 18) := by
    decide +kernel
  have completes := parse_completes "if (a) \x7b let x = -" ⟨.noOperand .eof, 18⟩ first
    (fun _ same => by cases same) (fun _ same => by cases same)
  exact ⟨first, found, completes.2 9 (.endOfInput 18) found rfl⟩

end LetLang
