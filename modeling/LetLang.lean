import LetLang.Main
import LetLang.Token.Cursor
import LetLang.Proofs.Concrete.Tree
import LetLang.Proofs.Parser.Keeps
import LetLang.Proofs.Concrete.First
import LetLang.Proofs.Parser.Completeness
import LetLang.Proofs.Concrete.Parts
import LetLang.Proofs.Parser.Acceptance
import LetLang.Proofs.Syntax.Bare
import LetLang.Proofs.Syntax.Printable
import LetLang.Proofs.Syntax.RoundTrip
import LetLang.Proofs.Token.Longest
import LetLang.Proofs.Token.Lossless
import LetLang.Proofs.Parser.Recovery
import LetLang.Proofs.Literal.Faults
import LetLang.Proofs.Parser.Ahead
import LetLang.Proofs.Parser.Truth
import LetLang.Proofs.Parser.Operations
import LetLang.Proofs.Parser.Ledger
import LetLang.Proofs.Parser.Online
import LetLang.Proofs.Parser.Agreement
import LetLang.Proofs.Parser.Layout
import LetLang.Proofs.Token.Junction
import LetLang.Proofs.Syntax.Spans
import LetLang.Proofs.Parser.Places
import LetLang.Proofs.Parser.Refuel
import LetLang.Proofs.Parser.Termination
import LetLang.Proofs.Concrete.Viable
import LetLang.Proofs.Parser.Mends
import LetLang.Proofs.Parser.Viability
import LetLang.Proofs.Parser.Completion
import LetLang.Proofs.Text.Lines
import LetLang.Proofs.Diagnostic.Rows
import LetLang.Proofs.Diagnostic.Caret
import LetLang.Proofs.Literal.Value
import LetLang.Proofs.Parser.Leaves
import LetLang.Proofs.Parser.WrittenIntegers
import LetLang.Proofs.Concrete.Unambiguous
import LetLang.Proofs.Syntax.Legible
import LetLang.Proofs.Syntax.Extent
import LetLang.Proofs.Syntax.Height
import LetLang.Proofs.Parser.Extents
import LetLang.Proofs.Parser.Coverage
