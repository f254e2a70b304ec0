/-!
# Text without terminal control

A terminal takes some characters as commands.  Messages that show text from outside leave these
out, so that the text cannot change how the message looks.

**Input.** Any text.

**Algorithm.** A control character that is not white space is left out, and so is an escape
sequence: the character U+001B with those behind it that belong to the same command.  White space
inside a sequence is shown, together with the plain text behind it up to the next control
character, where the sequence goes on.

**Result.** `plain`, the text that is left.
-/

namespace LetLang
namespace Text

/-- A character that is shown outside of commands: white space, or any that is no ASCII control. -/
def isPlain (c : Char) : Bool :=
  c = '\t' || c = '\n' || c = '\x0c' || c = '\r' || (' ' ≤ c && c ≠ '\x7f')

/-- Whether the UTF-8 form of a character has the byte that ends a control string. -/
def endsControlString (c : Char) : Bool :=
  c.toString.toUTF8.toList.contains 0x9C

/-- What the next character may belong to. -/
inductive Control
  /-- No command. -/
  | idle
  /-- A command of which only the escape character has been read. -/
  | escape
  /-- A command that goes on behind the escape character. -/
  | intermediate
  /-- A control sequence, which begins with a bracket and ends with a letter. -/
  | sequence
  /-- A command to the system around the terminal, which the bell ends. -/
  | systemCommand
  /-- A command to the device of which nothing behind its first letter has been read. -/
  | device
  /-- A command to the device with parameters. -/
  | deviceParameter
  /-- A command to the device that goes on behind its parameters. -/
  | deviceIntermediate
  /-- A control string: the data of a command to the device, or of a command without a head. -/
  | string
  deriving DecidableEq, Repr

namespace Control

/-- The command that a printable ASCII character behind the escape character begins. -/
def begun (c : Char) : Control :=
  if c ≤ '/' then intermediate
  else if c = '[' then sequence
  else if c = ']' then systemCommand
  else if c = 'P' then device
  else if c = 'X' || c = '^' || c = '_' then string
  else idle

/-- A command to the device behind one more character: its parameters come first, then what goes
on behind them, and any other printable ASCII character begins the data. -/
def inDevice (control : Control) (c : Char) : Control :=
  if c < ' ' || '\x7f' ≤ c then control
  else if c ≤ '/' then deviceIntermediate
  else if (control = device && c ≤ '?') || (control = deviceParameter && c ≤ ';') then
    deviceParameter
  else string

/-- What the character behind `c` may belong to, when `c` is not shown as text. -/
def next (control : Control) (c : Char) : Control :=
  if c = '\x1b' then escape
  else if c = '\x18' || c = '\x1a' then idle
  else
    match control with
    | idle => idle
    | systemCommand => if c = '\x07' then idle else systemCommand
    | device | deviceParameter | deviceIntermediate => inDevice control c
    | string => if endsControlString c then idle else string
    | escape => if ' ' ≤ c && c < '\x7f' then begun c else escape
    | intermediate => if '0' ≤ c && c < '\x7f' then idle else intermediate
    | sequence => if '@' ≤ c && c < '\x7f' then idle else sequence

/-- Whether a character is shown although it may belong to a command. -/
def shows (control : Control) (c : Char) : Bool :=
  match control with
  | idle => isPlain c
  | escape | intermediate | sequence => c < ' ' && isPlain c
  | systemCommand | device | deviceParameter | deviceIntermediate | string => false

end Control

/-- The characters that are shown; `inText` tells whether the one before was shown. -/
def plainChars (inText : Bool) (control : Control) : List Char → List Char
  | [] => []
  | c :: rest =>
      if inText && isPlain c then
        c :: plainChars true (if c < '\x7f' then control else .idle) rest
      else if control.shows c then
        c :: plainChars true control rest
      else
        plainChars false (control.next c) rest

/-- The text without terminal control. -/
def plain (text : String) : String :=
  String.ofList (plainChars false .idle text.toList)

end Text
end LetLang
