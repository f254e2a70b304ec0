import LetLang.Parser.Fuel

/-!
# Parsing

The steps of the grammar, run with as much fuel as they need.

**Input.** A parser, or a source text.

**Results.** A value or a diagnostic, with the parser behind what was read; and `parse`, the
program of a source text, its diagnostics and the trace.  Parsing a program never stops early: a
statement that fails is recorded and left out.
-/

namespace LetLang
namespace Parser

/-- Fuel enough for every step of the grammar. -/
def fuel (parser : Parser) : Nat :=
  parser.need + 5

/-- No task of the grammar is exhausted with this much. -/
theorem step_fuel_ne_exhausted (task : Task) (parser : Parser) :
    task.step parser.fuel parser ≠ .exhausted :=
  Call.run_ne_exhausted (Call.measure_le_need ⟨task, parser⟩)

/-- Run a step of the grammar that ends wherever it is begun. -/
def run {α : Type}
    (step : Nat → Step α) (ends : ∀ parser : Parser, step parser.fuel parser ≠ .exhausted)
    (parser : Parser) : Except Diagnostic α × Parser :=
  match outcome : step parser.fuel parser with
  | .done value ended => (.ok value, ended)
  | .failed diagnostic ended => (.error diagnostic, ended)
  | .exhausted => absurd outcome (ends parser)

/-- Read an expression whose operators bind more strongly than a power. -/
def readExpression (power : Power) : Parser → Except Diagnostic Expr × Parser :=
  run (fun fuel => Grammar.expression fuel power) (step_fuel_ne_exhausted (.expression power))

/-- Read the operand that begins at the current token as a handler does. -/
def readOperand (handler : OperandHandler) : Parser → Except Diagnostic Expr × Parser :=
  run (fun fuel => Grammar.operand fuel handler) (step_fuel_ne_exhausted (.operand handler))

/-- Read the operation whose operator is the current token as a handler does. -/
def readOperation (handler : OperatorHandler) (left : Expr) (power : Power) :
    Parser → Except Diagnostic Expr × Parser :=
  run (fun fuel => Grammar.operation fuel handler left power)
    (step_fuel_ne_exhausted (.operation handler left power))

/-- Read the statement that begins at the current token. -/
def readStatement : Parser → Except Diagnostic Stmt × Parser :=
  run Grammar.statement (step_fuel_ne_exhausted .statement)

/-- Read the statement that begins at the current token as a handler does. -/
def readStatementBy (handler : StatementHandler) : Parser → Except Diagnostic Stmt × Parser :=
  run (fun fuel => Grammar.statementBy fuel handler)
    (step_fuel_ne_exhausted (.statementBy handler))

/-- Read the block whose opening brace is the current token. -/
def readBlock : Parser → Except Diagnostic Block × Parser :=
  run Grammar.block (step_fuel_ne_exhausted .block)

/-- Read the statement that begins at the current token, or record why there is none. -/
def readStatementOrRecord (parser : Parser) : Option Stmt × Parser :=
  match parser.readStatement with
  | (.ok statement, ended) => (some statement, ended)
  | (.error diagnostic, ended) => (none, ended.record diagnostic)

/-- Reading all statements is done, whatever they are. -/
theorem statements_eq_done (parser : Parser) :
    ∃ all ended, Grammar.statements parser.fuel [] parser = .done all ended :=
  Grammar.statements_succeeds (Nat.le_refl parser.fuel)

/-- Read all statements up to the end of the input. -/
def readStatements (parser : Parser) : List Stmt × Parser :=
  match outcome : Grammar.statements parser.fuel [] parser with
  | .done all ended => (all, ended)
  | .failed _ _ => False.elim (by simpa [outcome] using parser.statements_eq_done)
  | .exhausted => False.elim (by simpa [outcome] using parser.statements_eq_done)

theorem readStatements_of_done
    {parser ended : Parser} {all : List Stmt}
    (h : Grammar.statements parser.fuel [] parser = .done all ended) :
    parser.readStatements = (all, ended) := by
  unfold readStatements
  split
  · rename_i outcome
    cases h.symm.trans outcome
    rfl
  · rename_i outcome
    cases h.symm.trans outcome
  · rename_i outcome
    cases h.symm.trans outcome

/-- Read the program up to the end of the input, and note its beginning and its end. -/
def readProgram (parser : Parser) : Program × Parser :=
  let (all, ended) := (parser.note (.programBegun parser.stream.stop)).readStatements
  (⟨all⟩, ended.note (.programEnded all.length ended.diagnostics.size))

end Parser

/-- What a source text parses to.  It is a valid program exactly if there are no diagnostics. -/
structure Parsed where
  program : Program
  diagnostics : List Diagnostic
  trace : List Event

/-- Parse a source text. -/
def parse (source : String) : Parsed :=
  let (program, parser) := (Parser.ofSource source).readProgram
  { program
    diagnostics := parser.diagnostics.toList
    trace := parser.trace.toList }

/-- The log of a parse: its entries in order. -/
def Parsed.log (parsed : Parsed) : List (Level × String) :=
  parsed.trace.filterMap Event.entry?

end LetLang
