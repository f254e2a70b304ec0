import LetLang.Proofs.Parser.Lockstep
import LetLang.Proofs.Token.Lossless

/-!
# Texts that are parsed one behind the other

**Input.** A text whose last token is a semicolon, and any text behind it.

**Result.** `parse_append_of_semicolon`: unless a block of the first text is left open, the whole
is parsed to the statements and the diagnostics of the first text, and behind them those of the
second, moved by the bytes of the first.

The loop over statements passes the semicolon at the same time in the first text and in the whole
one.  From there on the whole is parsed as the second text is, only at other bytes and with other
diagnostics before, and this is once more a matter of two parsers that stand at one place.
-/

namespace LetLang

open Text

namespace Embedding

open Step Grammar

variable {embedding : Embedding} {inner outer : Parser}

/-- The inner loop over statements has passed its input, and the outer one goes on behind it with
the statements that have been found, and with older ones. -/
def GoesOn (embedding : Embedding) (older : List Stmt) (outcome outcome' : Outcome (List Stmt)) :
    Prop :=
  outcome.Meets
    (fun all innerEnd => innerEnd.Unclosed ∨
      ∃ fuel middle, embedding.Crosses innerEnd middle ∧
        outcome' =
          statements fuel ((all.map (Stmt.relocate embedding.place)).reverse ++ older) middle)
    (fun _ _ => True)

/-- Behind its last semicolon the inner loop has passed its input. -/
theorem statements_goesOn
    (fuel fuel' : Nat) (found older : List Stmt) (crosses : embedding.Crosses inner outer) :
    embedding.GoesOn older (statements fuel found inner)
      (statements fuel' (found.map (Stmt.relocate embedding.place) ++ older) outer) := by
  cases fuel with
  | zero =>
      trivial
  | succ fuel =>
      simp only [statements, current_bind, Parser.current_kind_of_tokens_nil crosses.passed,
        if_true]
      refine .inr ⟨fuel', outer, crosses, ?_⟩
      rw [List.map_reverse, List.reverse_reverse]

/-- The loop over the statements of a program matches that of an outer parser, unless that goes on
behind it. -/
theorem statements_lockstep
    (fuel fuel' : Nat) (found older : List Stmt) (links : embedding.Links inner outer) :
    embedding.MatchesUnless (embedding.GoesOn older)
      (fun all => older.reverse ++ all.map (Stmt.relocate embedding.place)) (· = .eof)
      (statements fuel found inner)
      (statements fuel' (found.map (Stmt.relocate embedding.place) ++ older) outer) := by
  -- Both loops pass one token or more in a round, so the fuel of the inner one will do.
  induction fuel generalizing fuel' found inner outer with
  | zero =>
      exact .inr (.innerExhausted _)
  | succ fuel ih =>
      cases fuel' with
      | zero =>
          exact matches_exhausted _
      | succ fuel' =>
          have step := (lockstep_of_fuel embedding fuel).statement fuel' links
          simp only [statements, current_bind, links.current, Token.kind_relocate]
          by_cases atEnd : inner.current.kind = .eof
          · simp only [atEnd, if_true]
            refine .inr ?_
            rw [List.reverse_append, ← List.map_reverse]
            exact .done links atEnd
          · simp only [atEnd, if_false]
            rcases matches_recovering step with ⟨more, unclosed⟩ | mirrors
            · refine .inl ⟨more, ?_⟩
              have onward (read : Option Stmt) : Step.Onward
                  (Step.advance >>= fun _ => statements fuel (read.toList ++ found)) :=
                onward_bind onward_advance (fun _ => statements_onward fuel _)
              exact (unclosed_bind unclosed onward).mono
                (fun _ _ recorded => .inl recorded) (fun _ _ _ => trivial)
            · refine mirrors_bind mirrors ?_
              intro read innerEnd outerEnd links _
              have same : (read.map (Stmt.relocate embedding.place)).toList ++
                  (found.map (Stmt.relocate embedding.place) ++ older) =
                    (read.toList ++ found).map (Stmt.relocate embedding.place) ++ older := by
                cases read <;> rfl
              simp only [advance_bind, same]
              rcases links.advance_cases with links | ⟨_, crosses⟩
              · exact ih fuel' (read.toList ++ found) links
              · exact .inl ⟨crosses.more, statements_goesOn fuel fuel' _ older crosses⟩

/-- Where both inputs end at one place, all statements of the inner one are found again. -/
theorem statements_of_links
    (whole : embedding.behind? = none) (links : embedding.Links inner outer)
    {fuel fuel' : Nat} {older all all' : List Stmt} {innerEnd outerEnd : Parser}
    (done : statements fuel [] inner = .done all innerEnd)
    (done' : statements fuel' older outer = .done all' outerEnd) :
    all' = older.reverse ++ all.map (Stmt.relocate embedding.place) ∧
      outerEnd.diagnostics.toList = embedding.earlier ++
        innerEnd.diagnostics.toList.map (Diagnostic.relocate embedding.place) := by
  have same := statements_lockstep fuel fuel' [] older links
  rw [List.map_nil, List.nil_append, done, done'] at same
  rcases same with ⟨more, _⟩ | mirrors
  · exact absurd whole more
  · cases mirrors with
    | done links stopped =>
        exact ⟨rfl, links.diagnostics⟩

/-- Where there is more behind the inner input, the outer loop goes on there. -/
theorem exists_middle_of_links
    (more : embedding.behind? ≠ none) (links : embedding.Links inner outer)
    (noEnd : ∀ token ∈ inner.stream.tokens, token.kind ≠ .eof)
    {fuel fuel' : Nat} {all all' : List Stmt} {innerEnd outerEnd : Parser}
    (done : statements fuel [] inner = .done all innerEnd)
    (done' : statements fuel' [] outer = .done all' outerEnd)
    (closed : ¬ innerEnd.Unclosed) :
    ∃ fuel middle, embedding.Crosses innerEnd middle ∧
      statements fuel (all.map (Stmt.relocate embedding.place)).reverse middle =
        .done all' outerEnd := by
  have same := statements_lockstep fuel fuel' [] [] links
  have extension := statements_onward fuel [] inner
  rw [List.map_nil, List.nil_append, done, done'] at same
  rw [done] at extension
  rcases same with ⟨_, unclosed | ⟨fuel, middle, crosses, goesOn⟩⟩ | mirrors
  · exact absurd unclosed closed
  · rw [List.append_nil] at goesOn
    exact ⟨fuel, middle, crosses, goesOn.symm⟩
  · cases mirrors with
    | done links stopped =>
        have passed : innerEnd.stream.tokens = [] :=
          Parser.tokens_eq_nil_of_current
            (fun token mem => noEnd token (extension.mem_tokens mem)) stopped
        have joins := links.joins
        cases behind : embedding.behind? with
        | none =>
            exact absurd behind more
        | some tokens =>
            rw [Joins, behind] at joins
            obtain ⟨front, last, whole, _⟩ := joins
            simp [passed] at whole

end Embedding

open LetLang.Embedding in
/-- A text whose tokens are those of another one, but at other places, is parsed to the same
statements and diagnostics at other places. -/
theorem parse_relocate
    {source moved : String} {place : Nat → Nat}
    (tokens : Token.scan 0 moved.toList =
      (Token.scan 0 source.toList).map (Token.relocate place))
    (stop : byteLength moved.toList = place (byteLength source.toList)) :
    (parse moved).program.statements =
        (parse source).program.statements.map (Stmt.relocate place) ∧
      (parse moved).diagnostics = (parse source).diagnostics.map (Diagnostic.relocate place) := by
  obtain ⟨_, event, ended, done, recorded⟩ := Parser.exists_statements_eq_done source
  obtain ⟨_, event', ended', done', recorded'⟩ := Parser.exists_statements_eq_done moved
  let embedding : Embedding := ⟨place, [], byteLength moved.toList, none⟩
  have links : embedding.Links ((Parser.ofSource source).note event)
      ((Parser.ofSource moved).note event') :=
    ⟨tokens.trans (List.append_nil _).symm, stop, rfl, rfl, rfl, rfl, rfl⟩
  obtain ⟨statements, diagnostics⟩ := statements_of_links rfl links done done'
  rw [recorded, recorded']
  exact ⟨statements, diagnostics⟩

/-- A semicolon does not go on with anything. -/
theorem Token.scan_append_of_semicolon
    {text : List Char} {last : Token} (rest : List Char)
    (isLast : (scan 0 text).getLast? = some last) (semicolon : last.kind = .semicolon) :
    scan 0 (text ++ rest) =
      scan 0 text ++ (scan 0 rest).map (relocate (byteLength text + ·)) := by
  rw [scan_append, ← scan_zero_add, Nat.zero_add]
  intro token mem _ c _
  cases (Option.mem_def.mp mem).symm.trans isLast
  rw [semicolon]
  rfl

namespace Embedding

/-- How a text lies in one that goes on behind it. -/
def ofFirst (first second : String) : Embedding :=
  { place := id
    earlier := []
    stop := byteLength (first ++ second).toList
    behind? := some ((Token.scan 0 second.toList).map
      (Token.relocate (byteLength first.toList + ·))) }

/-- How a text lies in one that ends with it. -/
def ofSecond (first second : String) : Embedding :=
  { place := (byteLength first.toList + ·)
    earlier := (parse first).diagnostics
    stop := byteLength (first ++ second).toList
    behind? := none }

theorem links_ofFirst
    {first second : String} {last : Token} {event event' : Event}
    (isLast : (Token.scan 0 first.toList).getLast? = some last)
    (semicolon : last.kind = .semicolon) :
    (ofFirst first second).Links ((Parser.ofSource first).note event)
      ((Parser.ofSource (first ++ second)).note event') := by
  obtain ⟨front, whole⟩ := List.getLast?_eq_some_iff.mp isLast
  refine ⟨?_, ⟨front, last, whole, semicolon⟩, rfl, rfl, rfl, rfl, rfl⟩
  have tokens := Token.scan_append_of_semicolon second.toList isLast semicolon
  rw [← String.toList_append] at tokens
  exact tokens.trans (congrArg (· ++ _) (List.map_id _).symm)

theorem links_ofSecond
    {first second : String} {event : Event} {ended middle : Parser}
    (crosses : (ofFirst first second).Crosses ended middle)
    (depth : ended.depth = 0) (recorded : (parse first).diagnostics = ended.diagnostics.toList) :
    (ofSecond first second).Links ((Parser.ofSource second).note event) middle := by
  refine ⟨?_, ?_, crosses.stop, rfl, crosses.outerHandlers, crosses.depth.trans depth, ?_⟩
  · rw [← Option.some_inj.mp crosses.behind]
    exact (List.append_nil _).symm
  · show byteLength (first ++ second).toList = _ + byteLength second.toList
    rw [String.toList_append, byteLength_append]
  · have same := crosses.diagnostics
    rw [← recorded] at same
    refine same.trans ?_
    show [] ++ (parse first).diagnostics.map (Diagnostic.relocate id) =
      (parse first).diagnostics ++ []
    rw [Diagnostic.map_relocate_id, List.nil_append, List.append_nil]

end Embedding

open LetLang.Embedding in
/-- Behind a text that ends in a semicolon, with no block left open, any other text is parsed as it
is alone, but for its place. -/
theorem parse_append
    {first second : String} {last : Token}
    (isLast : (Token.scan 0 first.toList).getLast? = some last)
    (semicolon : last.kind = .semicolon)
    (closed : ∀ diagnostic ∈ (parse first).diagnostics,
      diagnostic.cause ≠ .unexpectedToken .closeBrace .eof) :
    (parse (first ++ second)).program.statements =
        (parse first).program.statements ++
          (parse second).program.statements.map
            (Stmt.relocate (byteLength first.toList + ·)) ∧
      (parse (first ++ second)).diagnostics =
        (parse first).diagnostics ++
          (parse second).diagnostics.map (Diagnostic.relocate (byteLength first.toList + ·)) := by
  obtain ⟨fuel₁, event₁, ended₁, done₁, recorded₁⟩ := Parser.exists_statements_eq_done first
  obtain ⟨_, event₂, ended₂, done₂, recorded₂⟩ := Parser.exists_statements_eq_done second
  obtain ⟨_, event, ended, done, recorded⟩ := Parser.exists_statements_eq_done (first ++ second)
  have closed : ¬ ended₁.Unclosed := by
    rintro ⟨diagnostic, mem, cause⟩
    exact closed diagnostic (recorded₁ ▸ mem) cause
  obtain ⟨_, middle, crosses, goesOn⟩ :=
    exists_middle_of_links (Option.some_ne_none _) (links_ofFirst isLast semicolon)
      (fun _ mem => (Token.spelled_of_mem_scan mem).spells.ne_eof) done₁ done closed
  have extension := Grammar.statements_onward fuel₁ [] ((Parser.ofSource first).note event₁)
  rw [done₁] at extension
  obtain ⟨statements, diagnostics⟩ :=
    statements_of_links rfl (links_ofSecond crosses extension.depth recorded₁) done₂ goesOn
  rw [List.reverse_reverse] at statements
  rw [statements, recorded, diagnostics, recorded₂]
  exact ⟨congrArg (· ++ _) (Stmt.map_relocate_id _), rfl⟩

/-- A semicolon ends whatever stands before it.  Unless a block is left open there, a text that goes
on behind a semicolon is parsed to the statements and the diagnostics of the part up to it, whatever
these are, and then to those of the rest, moved by the bytes of the part before. -/
theorem parse_append_of_semicolon
    (first second : String)
    (last : ∃ token, (tokenize first).dropLast.getLast? = some token ∧ token.kind = .semicolon)
    (closed : ∀ diagnostic ∈ (parse first).diagnostics,
      diagnostic.cause ≠ .unexpectedToken .closeBrace .eof) :
    (parse (first ++ second)).program.statements =
        (parse first).program.statements ++
          (parse second).program.statements.map (Stmt.relocate (first.utf8ByteSize + ·)) ∧
      (parse (first ++ second)).diagnostics =
        (parse first).diagnostics ++
          (parse second).diagnostics.map (Diagnostic.relocate (first.utf8ByteSize + ·)) := by
  obtain ⟨token, isLast, semicolon⟩ := last
  rw [tokenize_dropLast] at isLast
  rw [← byteLength_toList]
  exact parse_append isLast semicolon closed

/-- The part before the semicolon has no statement that could be read, and the rest has one that
could not. -/
theorem parse_append_of_semicolon_unread :
    (∃ token, (tokenize "let 5 = (]; ").dropLast.getLast? = some token ∧
      token.kind = .semicolon) ∧
    (∀ diagnostic ∈ (parse "let 5 = (]; ").diagnostics,
      diagnostic.cause ≠ .unexpectedToken .closeBrace .eof) ∧
    (parse ("let 5 = (]; " ++ "x; return )")).program.statements =
        (parse "let 5 = (]; ").program.statements ++
          (parse "x; return )").program.statements.map
            (Stmt.relocate ("let 5 = (]; ".utf8ByteSize + ·)) ∧
      (parse ("let 5 = (]; " ++ "x; return )")).diagnostics =
        (parse "let 5 = (]; ").diagnostics ++
          (parse "x; return )").diagnostics.map
            (Diagnostic.relocate ("let 5 = (]; ".utf8ByteSize + ·)) := by
  have last : ∃ token, (tokenize "let 5 = (]; ").dropLast.getLast? = some token ∧
      token.kind = .semicolon :=
    ⟨⟨.semicolon, ";", ⟨10, 11⟩⟩, by decide +kernel, rfl⟩
  have closed : ∀ diagnostic ∈ (parse "let 5 = (]; ").diagnostics,
      diagnostic.cause ≠ .unexpectedToken .closeBrace .eof := by
    decide +kernel
  exact ⟨last, closed, parse_append_of_semicolon _ _ last closed⟩

end LetLang
