import LetLang.Proofs.Parser.Acceptance
import LetLang.Proofs.Parser.Concatenation
import LetLang.Proofs.Parser.Unterminated
import LetLang.Proofs.Token.Lossless
import LetLang.Proofs.Token.Scans
import LetLang.Syntax.Render

/-!
# Behind a statement without its semicolon

**Input.** A text that is one expression, put into the block of a conditional as the value of a
return or a binding whose semicolon is missing, and any text behind the conditional.

**Result.** `parse_block_lackingSemicolon`: the statement is left out, the missing semicolon is
recorded, and the text behind is parsed as it is alone.  Where the block ends depends on the value:
the loop over its statements goes by the kind of the token that the failed statement has stopped at,
and takes the brace of a block inside the value for its own.

The value is given by its text, and a text that is parsed to one expression without a diagnostic is
that of a concrete expression wherever it stands; that it is parsed between parentheses as well says
that it may stand one level deeper.
-/

namespace LetLang

open Text

section Texts

/-- A text some blanks further on. -/
def indent (count : Nat) (source : String) : String :=
  String.ofList (List.replicate count ' ') ++ source

theorem byteLength_replicate (count : Nat) :
    byteLength (List.replicate count ' ') = count := by
  induction count with
  | zero =>
      rfl
  | succ count ih =>
      rw [List.replicate_succ, byteLength_cons, ih, Nat.add_comm]
      rfl

theorem scan_indent (count : Nat) (source : String) :
    Token.scan 0 (indent count source).toList = Token.scan count source.toList := by
  have blank : ∀ c ∈ List.replicate count ' ', isBlank c := by
    intro c mem
    rw [List.eq_of_mem_replicate mem]
    decide
  rw [indent, String.toList_append, String.toList_ofList, Token.scan_blanks blank,
    byteLength_replicate, Nat.zero_add]

/-- Blanks before a text move what it is parsed to. -/
theorem parse_indent (count : Nat) (source : String) :
    (parse (indent count source)).program.statements =
        (parse source).program.statements.map (Stmt.relocate (count + ·)) ∧
      (parse (indent count source)).diagnostics =
        (parse source).diagnostics.map (Diagnostic.relocate (count + ·)) := by
  refine parse_relocate ?_ ?_
  · rw [scan_indent, Token.scan_zero_add]
  · rw [indent, String.toList_append, String.toList_ofList, byteLength_append,
      byteLength_replicate]

/-- What a separating character is put behind is scanned apart from it. -/
theorem Token.scan_append_of_separates
    {offset : Nat} {text rest : List Char} {c : Char} (separates : Separates c) (other : c ≠ '=') :
    scan offset (text ++ c :: rest) =
      scan offset text ++ scan (offset + byteLength text) (c :: rest) := by
  refine scan_append ?_
  rintro token _ _ _ ⟨⟩
  exact Kind.fuses_of_separates separates other

end Texts

/-- A token is of its own kind. -/
def TokenOf.of (token : Token) : TokenOf [token.kind] :=
  ⟨token, List.mem_singleton.mpr rfl⟩

namespace Concrete

section Value

/-- A program whose syntax tree is one expression is an expression, with a semicolon or without. -/
theorem Program.eq_of_erase
    {program : Program} {token : Token} {e : LetLang.Expr}
    (h : program.erase.statements = [.expression token e]) :
    ∃ value semicolon, program.statements = [.expression value semicolon] := by
  obtain ⟨all⟩ := program
  rcases all with _ | ⟨s, _ | ⟨next, following⟩⟩
  · cases h
  · have h : [s.erase] = [.expression token e] := h
    cases s with
    | expression value semicolon =>
        exact ⟨value, semicolon, rfl⟩
    | binding | returningNothing | returning =>
        cases h
  · simp [Program.erase, Stmt.eraseAll] at h

/-- An expression whose text is read between parentheses has a level to spare. -/
theorem Expr.nesting_lt_of_parenthesized
    {source : String} {value : Expr} {offset : Nat}
    (wellFormed : value.WellFormed) (tokens : Token.scan (offset + 1) source.toList = value.tokens)
    (clean : (parse ("(" ++ source ++ ")")).diagnostics = []) :
    value.nesting < Parser.nestingLimit := by
  have clean : (parse (indent offset ("(" ++ source ++ ")"))).diagnostics = [] := by
    rw [(parse_indent _ _).2, clean]
    rfl
  have inner :
      Token.Scans (offset + byteLength ['(']) source.toList ([')'] ++ []) value.tokens := by
    rw [← tokens]
    exact Token.scan_append_of_separates (by decide) (by decide)
  have outer : Token.scan offset (['('] ++ source.toList ++ [')'] ++ []) = _ ++ Token.scan _ [] :=
    inner.parenthesized
  rw [List.append_nil, Token.scan_nil, List.append_nil] at outer
  let program : Program := ⟨[.expression (.group (.sign .openParen offset) value
    (.sign .closeParen (offset + byteLength (['('] ++ source.toList)))) none]⟩
  have same : Token.scan 0 (indent offset ("(" ++ source ++ ")")).toList = program.tokens := by
    rw [scan_indent, String.toList_append, String.toList_append]
    refine outer.trans ?_
    simp [program, Program.tokens, Stmt.tokensOf, Stmt.tokens, Expr.tokens]
  have parts : program.WellFormed := ⟨wellFormed, trivial, trivial⟩
  -- One level too many would be recorded, and nothing is.
  rcases Program.parse_cases parts same with ⟨fits, _⟩ | ⟨_, diagnostic, mem, _⟩
  · have fits : max (1 + value.nesting) 0 ≤ Parser.nestingLimit := fits
    omega
  · rw [clean] at mem
    cases mem

/-- A text that is one expression without a semicolon, with a level to spare, is that of a concrete
expression wherever it stands. -/
theorem Expr.exists_of_parse
    {source : String} {token last : Token} {e : LetLang.Expr} (offset : Nat)
    (clean : (parse source).diagnostics = [])
    (single : (parse source).program.statements = [.expression token e])
    (isLast : (Token.scan 0 source.toList).getLast? = some last)
    (bare : last.kind ≠ .semicolon)
    (room : (parse ("(" ++ source ++ ")")).diagnostics = []) :
    ∃ value : Expr, value.WellFormed ∧ value.nesting < Parser.nestingLimit ∧
      value.tokens = Token.scan (offset + 1) source.toList := by
  obtain ⟨statements, diagnostics⟩ := parse_indent (offset + 1) source
  obtain ⟨program, same, _, _, whole⟩ := Program.exists_source (indent (offset + 1) source)
  rw [single, same] at statements
  rw [clean] at diagnostics
  obtain ⟨wellFormed, tokens⟩ := whole diagnostics
  obtain ⟨value, semicolon, only⟩ := Program.eq_of_erase statements
  rw [scan_indent, Program.tokens, only] at tokens
  rw [Program.WellFormed, only] at wellFormed
  cases semicolon with
  | none =>
      have tokens : Token.scan (offset + 1) source.toList = value.tokens := by
        simpa [Stmt.tokensOf, Stmt.tokens] using tokens
      exact ⟨value, wellFormed.1, value.nesting_lt_of_parenthesized wellFormed.1 tokens room,
        tokens.symm⟩
  | some semicolon =>
      have ends := congrArg List.getLast? tokens
      rw [Token.scan_zero_add, List.getLast?_map, isLast] at ends
      have same : last.relocate (offset + 1 + ·) = semicolon.token := by
        simpa [Stmt.tokensOf, Stmt.tokens] using ends
      have kind : last.kind = semicolon.token.kind := by
        rw [← same, Token.kind_relocate]
      exact absurd (kind.trans semicolon.kind_eq) bare

end Value

section Program

/-- The tokens `if ( a ) {` at the beginning of a text. -/
def ifWord : TokenOf [.ifWord] := .of ⟨.ifWord, "if", ⟨0, 2⟩⟩

def openParen : TokenOf [.openParen] := .of ⟨.openParen, "(", ⟨3, 4⟩⟩

def name : TokenOf [.identifier] := .of ⟨.identifier, "a", ⟨4, 5⟩⟩

def closeParen : TokenOf [.closeParen] := .of ⟨.closeParen, ")", ⟨5, 6⟩⟩

def openBrace : TokenOf [.openBrace] := .of ⟨.openBrace, "\x7b", ⟨7, 8⟩⟩

theorem exists_head
    {head : String} (isHead : head = "return" ∨ head = "let x =") :
    ∃ beginning : Head, Token.scan 0 ("if (a) \x7b " ++ head).toList =
      ifWord.token :: openParen.token :: name.token :: closeParen.token :: openBrace.token ::
        beginning.tokens := by
  rcases isHead with rfl | rfl
  · refine ⟨.returning (.of ⟨.returnWord, "return", ⟨9, 15⟩⟩), ?_⟩
    decide +kernel
  · refine ⟨.binding (.of ⟨.letWord, "let", ⟨9, 12⟩⟩) (.of ⟨.identifier, "x", ⟨13, 14⟩⟩)
      (.of ⟨.assign, "=", ⟨15, 16⟩⟩), ?_⟩
    decide +kernel

theorem scan_braceSemicolon (offset : Nat) :
    Token.scan offset [' ', '\x7d', ';', ' '] =
      [(TokenOf.sign .closeBrace (offset + 1)).token,
        (TokenOf.sign .semicolon (offset + 2)).token] := by
  have here : Token.scan 0 [' ', '\x7d', ';', ' '] =
      [⟨.closeBrace, "\x7d", ⟨1, 2⟩⟩, ⟨.semicolon, ";", ⟨2, 3⟩⟩] := by
    decide +kernel
  rw [Token.scan_zero_add, here]
  rfl

/-- The beginning of the text, up to the value. -/
def beginning (head : String) : String :=
  "if (a) \x7b " ++ head ++ " "

/-- The text of a conditional in the block of which a statement has lost its semicolon. -/
def lackingSemicolon (head value : String) : String :=
  beginning head ++ value ++ " \x7d; "

theorem scan_lackingSemicolon
    {head : String} (source : String) (isHead : head = "return" ∨ head = "let x =") :
    ∃ start : Head, Token.scan 0 (lackingSemicolon head source).toList =
      ifWord.token :: openParen.token :: name.token :: closeParen.token :: openBrace.token ::
        (start.tokens ++ Token.scan (byteLength (beginning head).toList) source.toList) ++
          [(TokenOf.sign .closeBrace
              (byteLength (beginning head ++ source ++ " ").toList)).token,
            (TokenOf.sign .semicolon
              (byteLength (beginning head ++ source ++ " ").toList + 1)).token] := by
  obtain ⟨start, tokens⟩ := exists_head isHead
  refine ⟨start, ?_⟩
  have text : (lackingSemicolon head source).toList =
      ("if (a) \x7b " ++ head).toList ++ ' ' :: (source.toList ++ [' ', '\x7d', ';', ' ']) := by
    simp [lackingSemicolon, beginning]
  have size : byteLength (beginning head).toList =
      0 + byteLength ("if (a) \x7b " ++ head).toList + ' '.utf8Size := by
    rw [beginning, String.toList_append, byteLength_append, Nat.zero_add]
    rfl
  have size' : byteLength (beginning head ++ source ++ " ").toList =
      byteLength (beginning head).toList + byteLength source.toList + 1 := by
    rw [String.toList_append, String.toList_append, byteLength_append, byteLength_append]
    rfl
  rw [text, Token.scan_append_of_separates (by decide) (by decide), tokens,
    Token.scan_blank (by decide), Token.scan_append_of_separates (by decide) (by decide),
    scan_braceSemicolon, ← size, size']
  simp

/-- Parsing the text alone: the semicolon is missed at the closing brace.  If the value ends in a
brace of its own, the block ends there, and the closing brace and the semicolon are left over. -/
theorem parse_lackingSemicolon
    {head source : String} {token last : Token} {e : LetLang.Expr}
    (isHead : head = "return" ∨ head = "let x =")
    (clean : (parse source).diagnostics = [])
    (single : (parse source).program.statements = [.expression token e])
    (isLast : (Token.scan 0 source.toList).getLast? = some last)
    (bare : last.kind ≠ .semicolon)
    (room : (parse ("(" ++ source ++ ")")).diagnostics = []) :
    ∃ s : LetLang.Stmt, s.render = "if (a) \x7b \x7d" ∧
      s.span = ⟨0, if last.kind = .closeBrace
        then byteLength (beginning head).toList + last.stop
        else byteLength (beginning head ++ source ++ " ").toList + 1⟩ ∧
      (parse (lackingSemicolon head source)).program.statements = [s] ∧
      (parse (lackingSemicolon head source)).diagnostics =
        ⟨.unexpectedToken .semicolon .closeBrace,
            byteLength (beginning head ++ source ++ " ").toList⟩ ::
          if last.kind = .closeBrace then
            [⟨.noOperand .closeBrace, byteLength (beginning head ++ source ++ " ").toList⟩,
              ⟨.noOperand .semicolon, byteLength (beginning head ++ source ++ " ").toList + 1⟩]
          else [] := by
  have size : byteLength (beginning head).toList =
      byteLength ("if (a) \x7b " ++ head).toList + 1 := by
    rw [beginning, String.toList_append, byteLength_append]
    rfl
  obtain ⟨start, tokens⟩ := scan_lackingSemicolon source isHead
  obtain ⟨value, wellFormed, few, same⟩ := Expr.exists_of_parse _ clean single isLast bare room
  rw [← size] at same
  rw [← same] at tokens
  have ends := congrArg List.getLast? same
  rw [Token.scan_zero_add, List.getLast?_map, isLast] at ends
  obtain ⟨front, whole⟩ := List.getLast?_eq_some_iff.mp ends
  obtain ⟨fuel, event, ended, done, recorded⟩ :=
    Parser.exists_statements_eq_done (lackingSemicolon head source)
  have before : ((Parser.ofSource (lackingSemicolon head source)).note event).Before
      (tokensBefore ifWord openParen (.identifier name) closeParen openBrace start value) _ :=
    ⟨rfl, tokens, Nat.zero_le _⟩
  have fits : ((Parser.ofSource (lackingSemicolon head source)).note event).Fits
      (1 + max (Expr.identifier name).nesting value.nesting) := by
    show 0 + (1 + max 1 value.nesting) ≤ Parser.nestingLimit
    have := value.nesting_pos
    omega
  have run := @statements_unterminated start (.identifier name) value _ _ _ _ _ _ _ _ fuel _
    ((Expr.identifier name).leads trivial).parses (value.leads wellFormed).parses whole before fits
  rw [done] at run
  obtain ⟨statements, adds⟩ := run
  have diagnostics := adds.diagnostics
  rw [← recorded] at diagnostics
  refine ⟨_, ?_, ?_, statements, diagnostics.trans ?_⟩
  · rfl
  · show Span.mk 0 (closer _ _).stop = _
    unfold closer
    by_cases nested : last.kind = .closeBrace
    · simp [nested]
    · simp only [Token.kind_relocate, nested, if_false]
      rfl
  · unfold unread
    by_cases nested : last.kind = .closeBrace
    · simp only [Token.kind_relocate, nested, if_true]
      rfl
    · simp only [Token.kind_relocate, nested, if_false]
      rfl

end Program

end Concrete

section Recovery

open Concrete

/-- A statement in a block whose semicolon is missing is left out, and what is behind the block is
parsed as ever.  The block ends at its own brace, unless the value ends in the brace of a block
inside it: then the block ends there, and its own brace and the semicolon behind it are reported as
well. -/
theorem parse_block_lackingSemicolon
    {head value : String} {token last : Token} {e : Expr} (rest : String)
    (isHead : head = "return" ∨ head = "let x =")
    (clean : (parse value).diagnostics = [])
    (single : (parse value).program.statements = [.expression token e])
    (isLast : (tokenize value).dropLast.getLast? = some last)
    (bare : last.kind ≠ .semicolon)
    (room : (parse ("(" ++ value ++ ")")).diagnostics = []) :
    let start := ("if (a) \x7b " ++ head ++ " ").utf8ByteSize
    let brace := ("if (a) \x7b " ++ head ++ " " ++ value ++ " ").utf8ByteSize
    let text := "if (a) \x7b " ++ head ++ " " ++ value ++ " \x7d; "
    ∃ s : Stmt, s.render = "if (a) \x7b \x7d" ∧
      s.span = ⟨0, if last.kind = .closeBrace then start + last.stop else brace + 1⟩ ∧
      (parse (text ++ rest)).program.statements =
        s :: (parse rest).program.statements.map (Stmt.relocate (text.utf8ByteSize + ·)) ∧
      (parse (text ++ rest)).diagnostics =
        ⟨.unexpectedToken .semicolon .closeBrace, brace⟩ ::
          ((if last.kind = .closeBrace then
              [⟨.noOperand .closeBrace, brace⟩, ⟨.noOperand .semicolon, brace + 1⟩]
            else []) ++
            (parse rest).diagnostics.map (Diagnostic.relocate (text.utf8ByteSize + ·))) := by
  intro start brace text
  rw [tokenize_dropLast] at isLast
  obtain ⟨s, render, span, statements, diagnostics⟩ :=
    parse_lackingSemicolon isHead clean single isLast bare room
  obtain ⟨_, tokens⟩ := scan_lackingSemicolon value isHead
  have ends := congrArg List.getLast? tokens
  simp only [List.getLast?_append, List.getLast?_cons_cons, List.getLast?_singleton,
    Option.some_or] at ends
  have closed : ∀ diagnostic ∈ (parse text).diagnostics,
      diagnostic.cause ≠ .unexpectedToken .closeBrace .eof := by
    show ∀ diagnostic ∈ (parse (lackingSemicolon head value)).diagnostics, _
    rw [diagnostics]
    split <;> simp
  obtain ⟨allStatements, allDiagnostics⟩ := @parse_append _ rest _ ends rfl closed
  simp only [byteLength_toList] at span diagnostics allStatements allDiagnostics
  refine ⟨s, render, span, ?_, ?_⟩
  · rw [statements] at allStatements
    exact allStatements
  · rw [diagnostics] at allDiagnostics
    exact allDiagnostics

/-- A conditional is parsed to one expression. -/
theorem exists_single_of_conditional :
    ∃ token e, (parse "if (b) \x7b 1 \x7d").program.statements = [.expression token e] := by
  refine ⟨⟨.ifWord, "if", ⟨0, 2⟩⟩,
    .conditional ⟨.ifWord, "if", ⟨0, 2⟩⟩ (.identifier ⟨⟨.identifier, "b", ⟨4, 5⟩⟩, "b"⟩)
      (.mk ⟨.openBrace, "\x7b", ⟨7, 8⟩⟩ ⟨7, 12⟩
        [.expression ⟨.integer, "1", ⟨9, 10⟩⟩ (.integer ⟨.integer, "1", ⟨9, 10⟩⟩ 1)])
      none, ?_⟩
  with_unfolding_all rfl

/-- Where the value is a conditional, the block ends with the block inside it. -/
theorem parse_block_lackingSemicolon_conditional :
    (parse "if (b) \x7b 1 \x7d").diagnostics = [] ∧
      (parse "(if (b) \x7b 1 \x7d)").diagnostics = [] ∧
      ∃ s : Stmt, s.render = "if (a) \x7b \x7d" ∧ s.span = ⟨0, 28⟩ ∧
        (parse "if (a) \x7b return if (b) \x7b 1 \x7d \x7d; c").program.statements =
          s :: (parse "c").program.statements.map (Stmt.relocate (32 + ·)) ∧
        (parse "if (a) \x7b return if (b) \x7b 1 \x7d \x7d; c").diagnostics =
          [⟨.unexpectedToken .semicolon .closeBrace, 29⟩, ⟨.noOperand .closeBrace, 29⟩,
            ⟨.noOperand .semicolon, 30⟩] := by
  have clean : (parse "if (b) \x7b 1 \x7d").diagnostics = [] := by
    decide +kernel
  have room : (parse "(if (b) \x7b 1 \x7d)").diagnostics = [] := by
    decide +kernel
  have isLast : (tokenize "if (b) \x7b 1 \x7d").dropLast.getLast? =
      some ⟨.closeBrace, "\x7d", ⟨11, 12⟩⟩ := by
    decide +kernel
  obtain ⟨_, _, single⟩ := exists_single_of_conditional
  obtain ⟨s, render, span, statements, diagnostics⟩ :=
    parse_block_lackingSemicolon "c" (.inl rfl) clean single isLast (by decide) room
  refine ⟨clean, room, s, render, span, statements, diagnostics.trans ?_⟩
  decide +kernel

/-- The brace that ends a block inside the value is taken for that of the block around it, although
the value and the text behind are parsed without a diagnostic. -/
theorem exists_block_lackingSemicolon_left_over :
    (parse "if (b) \x7b 1 \x7d").diagnostics = [] ∧
      (∃ token e, (parse "if (b) \x7b 1 \x7d").program.statements = [.expression token e]) ∧
      (∀ token ∈ (tokenize "if (b) \x7b 1 \x7d").dropLast.getLast?, token.kind ≠ .semicolon) ∧
      (parse "(if (b) \x7b 1 \x7d)").diagnostics = [] ∧
      (parse "c").diagnostics = [] ∧
      (parse "if (a) \x7b return if (b) \x7b 1 \x7d \x7d; c").diagnostics ≠
        [⟨.unexpectedToken .semicolon .closeBrace, 29⟩] := by
  have clean : (parse "if (b) \x7b 1 \x7d").diagnostics = [] := by
    decide +kernel
  have isLast : (tokenize "if (b) \x7b 1 \x7d").dropLast.getLast? =
      some ⟨.closeBrace, "\x7d", ⟨11, 12⟩⟩ := by
    decide +kernel
  refine ⟨clean, exists_single_of_conditional, ?_, ?_⟩
  · rw [isLast]
    rintro token ⟨⟩
    decide
  · decide +kernel

end Recovery

end LetLang
