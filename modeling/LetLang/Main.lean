import LetLang.CommandLine.Session

/-!
# The program

Reads the source that the arguments ask for and prints the answer.  All decisions are made in
LetLang.CommandLine.
-/

namespace LetLang
namespace CommandLine

/-- The reason that the system gives for a failure to read. -/
def failureOf : IO.Error → ReadFailure
  | .inappropriateType _ code _ => if code = 20 then .notDirectory else .isDirectory
  | .invalidArgument _ code _ => if code = 36 then .nameTooLong else .missing
  | _ => .missing

/-- The text of the source: that of a file, or the standard input without a path. -/
def readSource : Option String → IO (Except ReadFailure String)
  | none => do
      let stdin ← IO.getStdin
      return decodeText (← stdin.readBinToEnd)
  | some path => do
      try
        let file ← IO.FS.Handle.mk path .read
        return decodeText (← file.readBinToEnd)
      catch error =>
        return .error (failureOf error)

end CommandLine
end LetLang

open LetLang.CommandLine in
/-- Print the answer to the arguments and end with its status. -/
def main (arguments : List String) : IO UInt32 := do
  let source ←
    match sourcePath? arguments with
    | none => pure (.ok "")
    | some path => readSource path
  let begun ← IO.monoNanosNow
  let answer ← IO.lazyPure fun _ => Answer.ofArguments arguments source
  let ended ← IO.monoNanosNow
  let transcript := answer.transcript (toString (ended - begun) ++ "ns")
  IO.eprint transcript.errors
  IO.print transcript.output
  return transcript.status
