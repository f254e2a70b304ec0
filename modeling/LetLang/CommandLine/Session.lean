import LetLang.CommandLine.Arguments
import LetLang.CommandLine.FileTree
import LetLang.Diagnostic.Report
import LetLang.Parser.Run
import LetLang.Syntax.Render
import LetLang.Text.Plain

/-!
# What the program prints

**Input.** What the arguments ask for, and the source text or the reason why it cannot be read.

**Result.** A transcript: the text on the standard output, the text on the standard error, and
the exit status, which is zero for success, one for a source with diagnostics, and two for wrong
arguments or a source that cannot be read.
-/

namespace LetLang
namespace CommandLine

/-- What a run of the program leaves behind. -/
structure Transcript where
  status : UInt32
  output : String
  errors : String
  deriving DecidableEq, Repr

/-- Some lines of text. -/
def lines (rows : List String) : String :=
  String.join (rows.map (· ++ "\n"))

/-- How the program is called. -/
def usage : String :=
  "Usage: moncow [OPTIONS] [path]"

/-- How the program is called with some flags, each of them once, and with or without a path. -/
def usageWith (flags : List Flag) (hasPath : Bool) : String :=
  if flags.isEmpty && !hasPath then usage
  else
    "Usage: moncow" ++ String.join (flags.eraseDups.map (" " ++ ·.name)) ++
      if hasPath then " <path>" else " [path]"

/-- The answer to a request for help. -/
def helpText : String :=
  lines
    [ "Parses moncow source text and prints its syntax tree",
      "",
      usage,
      "",
      "Arguments:",
      "  [path]  Path to the source file; reads stdin when omitted",
      "",
      "Options:",
      "  -t, --tokens   Print the token stream instead of the syntax tree",
      "  -v, --verbose  Log parser progress to stderr",
      "  -h, --help     Print help",
      "  -V, --version  Print version" ]

/-- The answer to a request for the version. -/
def versionText : String :=
  lines ["moncow 0.1.0"]

namespace Misuse

/-- What is wrong with the arguments, in a line. -/
def message : Misuse → String
  | unknownLetter letter => unexpected ("-" ++ letter.toString)
  | unknownWord word _ => unexpected ("--" ++ word)
  | extraPath path => unexpected path
  | repeatedFlag flag => "the argument '" ++ flag.name ++ "' cannot be used multiple times"
  | valueGiven flag value _ =>
      "unexpected value '" ++ Text.plain value ++ "' for '" ++ flag.name ++
        "' found; no more were expected"
where
  /-- The message for an argument that is not expected. -/
  unexpected (argument : String) : String :=
    "unexpected argument '" ++ Text.plain argument ++ "' found"

/-- Advice for an argument that stands for no flag: the flag that was meant, or how to give the
argument as a path. -/
def tip : Misuse → Option String
  | unknownLetter letter => some (asValue ("-" ++ letter.toString))
  | unknownWord word _ =>
      match Flag.similar? word with
      | some flag => some ("a similar argument exists: '" ++ flag.name ++ "'")
      | none => some (asValue ("--" ++ word))
  | _ => none
where
  /-- How to give an argument as a path. -/
  asValue (argument : String) : String :=
    "to pass '" ++ Text.plain argument ++ "' as a value, use '-- " ++ Text.plain argument ++ "'"

/-- How to call the program instead.  Where one flag is wrong the call keeps what was given before
it, and has the flag that was meant. -/
def usage : Misuse → String
  | unknownWord word before =>
      usageWith (before.flags ++ (Flag.similar? word).toList) before.path.isSome
  | valueGiven flag _ before =>
      usageWith (before.flags ++ [flag]) before.upToLastFlag.path.isSome
  | _ => CommandLine.usage

/-- The answer to wrong arguments. -/
def transcript (misuse : Misuse) : Transcript :=
  { status := 2
    output := ""
    errors := lines
      (["error: " ++ misuse.message, ""] ++
        (misuse.tip.toList.flatMap fun tip => ["  tip: " ++ tip, ""]) ++
        [misuse.usage, "", "For more information, try '--help'."]) }

end Misuse

namespace Options

/-- The name of the source in reports. -/
def sourceName (options : Options) : String :=
  options.path.getD "<stdin>"

/-- The answer when the source cannot be read. -/
def unreadable (options : Options) (failure : ReadFailure) : Transcript :=
  { status := 2
    output := ""
    errors := lines ["Failed to read " ++ options.sourceName ++ ": " ++ failure.message] }

/-- The log of a parse that took some time, if it is asked for. -/
def log (options : Options) (parsed : Parsed) (elapsed : String) : List String :=
  if options.verbose then
    (parsed.log ++ [(Level.info, "Parsed in " ++ elapsed)]).map fun (level, message) =>
      "[" ++ level.name ++ "] " ++ message
  else
    []

/-- The answer when the source has been parsed, in some time. -/
def transcript
    (options : Options) (source : String) (parsed : Parsed) (elapsed : String) : Transcript :=
  let log := options.log parsed elapsed
  if parsed.diagnostics.isEmpty then
    { status := 0
      output := lines (parsed.program.statements.map Stmt.render)
      errors := lines log }
  else
    { status := 1
      output := ""
      errors := lines (log ++ parsed.diagnostics.map (·.report source options.sourceName)) }

/-- The answer when the tokens of the source are asked for. -/
def tokenListing (source : String) : Transcript :=
  { status := 0
    output := lines ((tokenize source).map Token.listing)
    errors := "" }

end Options

/-- All of a run but the time that it takes. -/
inductive Answer
  | misused (cause : Misuse)
  | help
  | version
  | unreadable (options : Options) (failure : ReadFailure)
  | tokens (source : String)
  | parsed (options : Options) (source : String) (result : Parsed)

namespace Answer

/-- The answer to some arguments, when the source they name is read with some result. -/
def ofArguments (arguments : List String) (source : Except ReadFailure String) : Answer :=
  match Request.ofArguments arguments with
  | .error cause => .misused cause
  | .ok .help => .help
  | .ok .version => .version
  | .ok (.run options) =>
      match source with
      | .error failure => .unreadable options failure
      | .ok source =>
          if options.tokens then .tokens source
          else .parsed options source (parse source)

/-- The transcript of a run that takes some time. -/
def transcript (elapsed : String) : Answer → Transcript
  | misused cause => cause.transcript
  | help => { status := 0, output := helpText, errors := "" }
  | version => { status := 0, output := versionText, errors := "" }
  | unreadable options failure => options.unreadable failure
  | tokens source => Options.tokenListing source
  | parsed options source result => options.transcript source result elapsed

end Answer

end CommandLine
end LetLang
