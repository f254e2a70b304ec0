import LetLang.Diagnostic.Basic

/-!
# The trace of a parse

While it works a parser leaves a trace: where it begins to read a statement or an expression, and
which diagnostics it records.  Most events have an entry in the log.
-/

namespace LetLang

/-- Something that happens while a text is parsed. -/
inductive Event
  | programBegun (bytes : Nat)
  | statementBegun (token : Token)
  | expressionBegun (token : Token)
  | recorded (diagnostic : Diagnostic)
  | programEnded (statements diagnostics : Nat)
  deriving DecidableEq, Repr

/-- How much attention an entry of the log asks for. -/
inductive Level
  | info
  | debug
  deriving DecidableEq, Repr

/-- The name of a level in the log. -/
def Level.name : Level → String
  | info => "INFO"
  | debug => "DEBUG"

namespace Event

/-- The entry of an event in the log.  The beginning of an expression has none. -/
def entry? : Event → Option (Level × String)
  | programBegun bytes =>
      some (.info, "parsing program (" ++ toString bytes ++ " bytes)")
  | statementBegun token =>
      some (.debug, "parsing statement beginning " ++ token.kind.name)
  | expressionBegun _ => none
  | recorded diagnostic =>
      some (.debug, "recorded " ++ diagnostic.cause.name ++ " at offset " ++
        toString diagnostic.position ++ ": " ++ diagnostic.cause.message)
  | programEnded statements diagnostics =>
      some (.info, "parsed " ++ toString statements ++ " statements with " ++
        toString diagnostics ++ " errors")

end Event

end LetLang
