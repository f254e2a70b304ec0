import LetLang.Diagnostic.Basic
import LetLang.Text.Blank
import LetLang.Text.Line

/-!
# Reports

**Input.** A diagnostic, the source text it belongs to, and the name of the file.

**Result.** `Diagnostic.report`, rows of text that show the line of the source with a caret under
the character at fault.  Leading spaces of the line are not shown, and the caret moves with them.
A diagnostic whose position is on no line of the text has a report of three rows without a line.
-/

namespace LetLang

open Text

namespace Report

/-- Text set to the right in a column of some width, with a character to fill it.

Every width is possible here.  A formatter that keeps widths in 16 bits has none above 65535.  The
one width in a report that grows with the text is that of the caret, which is at most the column
and one more, so that such a formatter makes the same reports for the columns up to 65534. -/
def padLeft (fill : Char) (width : Nat) (text : String) : String :=
  String.ofList (List.replicate (width - text.length) fill) ++ text

/-- The line of source that a report shows: no spaces before it and no blanks behind it. -/
def shownText (text : List Char) : List Char :=
  ((text.dropWhile (· = ' ')).reverse.dropWhile isBlank).reverse

/-- The rows that show a line of the source and point at a column of it. -/
def excerpt (line : Line) (message : String) : List String :=
  let number := toString line.number
  let gutter := padLeft ' ' (number.length + 2)
  let spaces := (line.text.takeWhile (· = ' ')).length
  [ gutter "|",
    number ++ " | " ++ String.ofList (shownText line.text),
    gutter "|" ++ " " ++ padLeft '-' (line.column - spaces + 1) "^",
    gutter "=" ++ " " ++ message ]

/-- The first row of a report, with the advice if there is some. -/
def heading (cause : Cause) : String :=
  match cause.tip? with
  | none => "Error: " ++ cause.name
  | some tip => "Error: " ++ cause.name ++ " (" ++ tip ++ ")"

end Report

namespace Diagnostic

/-- The rows of a report. -/
def reportRows (diagnostic : Diagnostic) (source file : String) : List String :=
  let message := diagnostic.cause.message
  [Report.heading diagnostic.cause, "-> " ++ file] ++
    match Line.at? source.toList diagnostic.position with
    | none => ["  = " ++ message]
    | some line => Report.excerpt line message

/-- The report of a diagnostic; a line feed ends every row. -/
def report (diagnostic : Diagnostic) (source file : String) : String :=
  String.join ((diagnostic.reportRows source file).map (· ++ "\n"))

end Diagnostic

end LetLang
