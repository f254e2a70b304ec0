import LetLang.Token.Stream
import LetLang.Parser.Handlers
import LetLang.Diagnostic.Event

/-!
# Parsers

A parser is a token stream together with all that the reading of it depends on or leaves behind:
the handlers, the number of expressions that are being read, the diagnostics recorded so far and
the trace.

**Steps.** A step reads from a parser and either is done, with a value, or fails, with a
diagnostic; in both cases the parser goes on from where the step has left it.  Steps that recurse
are given fuel, and a third outcome, `exhausted`, says that it was not enough.
-/

namespace LetLang

/-- The state of a parse. -/
structure Parser where
  stream : TokenStream
  handlers : Handlers
  depth : Nat
  diagnostics : Array Diagnostic
  trace : Array Event

namespace Parser

/-- How many expressions may be read one inside the other. -/
def nestingLimit : Nat := 100

/-- A parser at the first token of a text, with the entries of the language. -/
def ofSource (source : String) : Parser :=
  { stream := .ofSource source
    handlers := .standard
    depth := 0
    diagnostics := #[]
    trace := #[] }

/-- The token under examination. -/
def current (parser : Parser) : Token :=
  parser.stream.current

/-- The token behind the current one. -/
def next (parser : Parser) : Token :=
  parser.stream.next

/-- Pass the current token. -/
def advance (parser : Parser) : Parser :=
  { parser with stream := parser.stream.advance }

/-- Add an event to the trace. -/
def note (event : Event) (parser : Parser) : Parser :=
  { parser with trace := parser.trace.push event }

/-- Add a diagnostic to those recorded. -/
def record (diagnostic : Diagnostic) (parser : Parser) : Parser :=
  { parser with
    diagnostics := parser.diagnostics.push diagnostic
    trace := parser.trace.push (.recorded diagnostic) }

/-- Let the tables be changed. -/
def mapHandlers (change : Handlers → Handlers) (parser : Parser) : Parser :=
  { parser with handlers := change parser.handlers }

/-- Pass the current token if it is of a kind, and otherwise stay. -/
def expect (kind : Kind) (parser : Parser) : Except Diagnostic Token × Parser :=
  let token := parser.current
  if token.kind = kind then
    (.ok token, parser.advance)
  else
    (.error ⟨.unexpectedToken kind token.kind, token.start⟩, parser)

/-- Move to the next token if it is of a kind, and otherwise stay. -/
def expectNext (kind : Kind) (parser : Parser) : Except Diagnostic Token × Parser :=
  let token := parser.next
  if token.kind = kind then
    (.ok token, parser.advance)
  else
    (.error ⟨.unexpectedToken kind token.kind, token.start⟩, parser)

/-- Begin an expression inside those being read, unless they are too many already. -/
def enter (parser : Parser) : Except Diagnostic Parser :=
  if parser.depth < nestingLimit then
    .ok { parser with depth := parser.depth + 1 }
  else
    .error ⟨.nestingTooDeep nestingLimit, parser.current.start⟩

/-- End the innermost expression. -/
def leave (parser : Parser) : Parser :=
  { parser with depth := parser.depth - 1 }

end Parser

/-- How a step ends. -/
inductive Outcome (α : Type)
  | done (value : α) (parser : Parser)
  | failed (diagnostic : Diagnostic) (parser : Parser)
  | exhausted

/-- A step of a parse. -/
def Step (α : Type) : Type :=
  Parser → Outcome α

namespace Step

variable {α β : Type}

/-- Go on with the value of a step, if it has one. -/
@[always_inline, inline]
def andThen (step : Step α) (continuation : α → Step β) : Step β :=
  fun parser =>
    match step parser with
    | .done value parser => continuation value parser
    | .failed diagnostic parser => .failed diagnostic parser
    | .exhausted => .exhausted

@[always_inline]
instance : Monad Step where
  pure value := fun parser => .done value parser
  bind := andThen

/-- Give up for want of fuel. -/
def outOfFuel : Step α :=
  fun _ => .exhausted

/-- End in a diagnostic. -/
def fail (cause : Cause) (position : Nat) : Step α :=
  fun parser => .failed ⟨cause, position⟩ parser

/-- Look at the parser. -/
def read (view : Parser → α) : Step α :=
  fun parser => .done (view parser) parser

/-- Change the parser. -/
def modify (change : Parser → Parser) : Step Unit :=
  fun parser => .done () (change parser)

/-- Take the outcome of an operation for that of a step. -/
def ofResult (operation : Parser → Except Diagnostic α × Parser) : Step α :=
  fun parser =>
    match operation parser with
    | (.ok value, parser) => .done value parser
    | (.error diagnostic, parser) => .failed diagnostic parser

/-- The current token, which is not passed. -/
def current : Step Token :=
  read Parser.current

/-- The current token, which is passed. -/
def take : Step Token :=
  fun parser => .done parser.current parser.advance

/-- Pass the current token. -/
def advance : Step Unit :=
  modify Parser.advance

/-- Pass the current token, which must be of a kind. -/
def expect (kind : Kind) : Step Token :=
  ofResult (Parser.expect kind)

/-- Move to the next token, which must be of a kind. -/
def expectNext (kind : Kind) : Step Token :=
  ofResult (Parser.expectNext kind)

/-- Read an expression inside those being read.  Its end is noted however it ends. -/
def nested (step : Step α) : Step α :=
  fun parser =>
    match parser.enter with
    | .error diagnostic => .failed diagnostic parser
    | .ok inner =>
        match step inner with
        | .done value parser => .done value parser.leave
        | .failed diagnostic parser => .failed diagnostic parser.leave
        | .exhausted => .exhausted

/-- Record the diagnostic that a step ends in, and go on without its value. -/
def recovering (step : Step α) : Step (Option α) :=
  fun parser =>
    match step parser with
    | .done value parser => .done (some value) parser
    | .failed diagnostic parser => .done none (parser.record diagnostic)
    | .exhausted => .exhausted

end Step

end LetLang
