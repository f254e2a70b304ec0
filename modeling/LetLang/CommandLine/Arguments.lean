import LetLang.Text.Similarity

/-!
# Command line arguments

**Input.** The arguments behind the name of the program.

**Algorithm.** Arguments are read from the left.  One that begins with two dashes is a flag by
its long name, one that begins with a single dash holds flags of one letter each, and any other,
a dash by itself among them, is the path of the source.  Behind an argument of two dashes all are
paths.  The first argument that asks for help or for the version, or that is wrong, ends the
reading.

**Result.** `Request.ofArguments`, what the program is asked to do or what is wrong with the
arguments.
-/

namespace LetLang
namespace CommandLine

/-- The flags. -/
inductive Flag
  | tokens
  | verbose
  | help
  | version
  deriving DecidableEq, Repr

namespace Flag

/-- All flags, in the order of the help text. -/
def all : List Flag :=
  [tokens, verbose, help, version]

/-- The word that stands for a flag behind two dashes. -/
def word : Flag → String
  | tokens => "tokens"
  | verbose => "verbose"
  | help => "help"
  | version => "version"

/-- The long name of a flag. -/
def name (flag : Flag) : String :=
  "--" ++ flag.word

/-- The flag with a word. -/
def ofWord? (word : String) : Option Flag :=
  all.find? (·.word = word)

/-- The flag that was meant by a word that stands for none, if one is similar. -/
def similar? (word : String) : Option Flag :=
  Text.mostSimilar? word.toList (all.map fun flag => (flag.word.toList, flag))

/-- The flag with a letter. -/
def ofLetter? : Char → Option Flag
  | 't' => some tokens
  | 'v' => some verbose
  | 'h' => some help
  | 'V' => some version
  | _ => none

end Flag

/-- What one argument gives. -/
inductive Given
  | flag (flag : Flag)
  | path (path : String)
  deriving DecidableEq, Repr

/-- What the arguments have given, from the first one on. -/
structure Options where
  given : List Given
  deriving DecidableEq, Repr

namespace Options

/-- The options without any argument: print the syntax tree of the standard input. -/
def standard : Options :=
  { given := [] }

/-- Give one more thing. -/
def add (options : Options) (next : Given) : Options :=
  { given := options.given ++ [next] }

/-- The flags, in the order in which they are given. -/
def flags (options : Options) : List Flag :=
  options.given.filterMap fun
    | .flag flag => some flag
    | .path _ => none

/-- The path of the source, if it is given. -/
def path (options : Options) : Option String :=
  options.given.findSome? fun
    | .flag _ => none
    | .path path => some path

/-- Whether the tokens are to be printed instead of the syntax tree. -/
def tokens (options : Options) : Bool :=
  options.flags.contains .tokens

/-- Whether the parser is to log what it does. -/
def verbose (options : Options) : Bool :=
  options.flags.contains .verbose

/-- What is given up to the last flag: a path counts only when a flag follows it. -/
def upToLastFlag (options : Options) : Options :=
  match options.given.getLast? with
  | some (.path _) => { given := options.given.dropLast }
  | _ => options

end Options

/-- What the program can be asked to do. -/
inductive Request
  | help
  | version
  | run (options : Options)
  deriving DecidableEq, Repr

/-- What can be wrong with the arguments. -/
inductive Misuse
  /-- No flag has the letter. -/
  | unknownLetter (letter : Char)
  /-- No flag has the word, which follows some other arguments. -/
  | unknownWord (word : String) (before : Options)
  /-- The path is given for the second time. -/
  | extraPath (path : String)
  /-- The flag is given for the second time. -/
  | repeatedFlag (flag : Flag)
  /-- The flag, which follows some other arguments, is given with a value. -/
  | valueGiven (flag : Flag) (value : String) (before : Options)
  deriving DecidableEq, Repr

/-- Why the reading of arguments ends before the last of them. -/
inductive Ending
  | answered (request : Request)
  | misused (misuse : Misuse)
  deriving DecidableEq, Repr

namespace Options

/-- Set a flag. -/
def set (options : Options) : Flag → Except Ending Options
  | .help => .error (.answered .help)
  | .version => .error (.answered .version)
  | flag =>
      if options.flags.contains flag then .error (.misused (.repeatedFlag flag))
      else .ok (options.add (.flag flag))

/-- Set the flags with some letters. -/
def setLetters (options : Options) : List Char → Except Ending Options
  | [] => .ok options
  | letter :: letters =>
      match Flag.ofLetter? letter with
      | none => .error (.misused (.unknownLetter letter))
      | some flag =>
          match options.set flag with
          | .error ending => .error ending
          | .ok options => options.setLetters letters

/-- Set the flag with a word.  No flag takes a value, which would stand behind a sign of
equality. -/
def setWord (options : Options) (argument : List Char) : Except Ending Options :=
  let word := String.ofList (argument.takeWhile (· ≠ '='))
  match Flag.ofWord? word, argument.dropWhile (· ≠ '=') with
  | none, _ => .error (.misused (.unknownWord word options))
  | some flag, [] => options.set flag
  | some flag, _ :: value =>
      .error (.misused (.valueGiven flag (String.ofList value) options))

/-- Set the path of the source, of which there is at most one. -/
def setPath (options : Options) (argument : String) : Except Ending Options :=
  match options.path with
  | none => .ok (options.add (.path argument))
  | some _ => .error (.misused (.extraPath argument))

/-- Read one argument before those that are paths in any case. -/
def readArgument (options : Options) (argument : String) : Except Ending Options :=
  match argument.toList with
  | '-' :: '-' :: word => options.setWord word
  | '-' :: letter :: letters => options.setLetters (letter :: letters)
  | _ => options.setPath argument

/-- Read the arguments from the left. -/
def readAll (options : Options) : List String → Except Ending Options
  | [] => .ok options
  | "--" :: paths => paths.foldlM setPath options
  | argument :: rest =>
      match options.readArgument argument with
      | .error ending => .error ending
      | .ok options => options.readAll rest

end Options

/-- What the arguments ask for. -/
def Request.ofArguments (arguments : List String) : Except Misuse Request :=
  match Options.standard.readAll arguments with
  | .ok options => .ok (.run options)
  | .error (.answered request) => .ok request
  | .error (.misused misuse) => .error misuse

/-- The path of the source that the arguments ask for, which is the standard input without a
path; `none` when they ask for no source. -/
def sourcePath? (arguments : List String) : Option (Option String) :=
  match Request.ofArguments arguments with
  | .ok (.run options) => some options.path
  | _ => none

end CommandLine
end LetLang
