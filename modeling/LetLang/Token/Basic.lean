/-!
# Tokens

A token is a piece of the source text together with its kind and the bytes it covers.  Every kind
has a name; the name of an operator or a delimiter is its spelling in the source.
-/

namespace LetLang

/-- The bytes from `start` up to, and without, `stop`. -/
structure Span where
  start : Nat
  stop : Nat
  deriving DecidableEq, Repr, Inhabited

/-- The kinds of tokens.  `eof` is the end of the input, `illegal` a character of no other kind. -/
inductive Kind
  | eof
  | illegal
  | identifier
  | integer
  | float
  | assign
  | equal
  | bang
  | notEqual
  | less
  | greater
  | plus
  | minus
  | star
  | slash
  | comma
  | semicolon
  | openParen
  | closeParen
  | openBrace
  | closeBrace
  | letWord
  | fnWord
  | returnWord
  | ifWord
  | elseWord
  | trueWord
  | falseWord
  deriving DecidableEq, Repr, Inhabited

namespace Kind

/-- The name of a kind in messages. -/
def name : Kind → String
  | eof => "EOF"
  | illegal => "ILLEGAL"
  | identifier => "IDENT"
  | integer => "INT"
  | float => "FLOAT"
  | assign => "="
  | equal => "=="
  | bang => "!"
  | notEqual => "!="
  | less => "<"
  | greater => ">"
  | plus => "+"
  | minus => "-"
  | star => "*"
  | slash => "/"
  | comma => ","
  | semicolon => ";"
  | openParen => "("
  | closeParen => ")"
  | openBrace => "\x7b"
  | closeBrace => "\x7d"
  | letWord => "LET"
  | fnWord => "FN"
  | returnWord => "RETURN"
  | ifWord => "IF"
  | elseWord => "ELSE"
  | trueWord => "TRUE"
  | falseWord => "FALSE"

/-- No name is empty. -/
theorem toList_name_ne_nil (kind : Kind) :
    kind.name.toList ≠ [] := by
  cases kind <;> exact List.cons_ne_nil _ _

/-- The reserved words with their kinds. -/
def reserved : List (String × Kind) :=
  [("let", letWord), ("fn", fnWord), ("return", returnWord), ("if", ifWord),
    ("else", elseWord), ("true", trueWord), ("false", falseWord)]

/-- The kind of a word: its own if it is reserved, and otherwise that of a name. -/
def ofWord (word : String) : Kind :=
  (reserved.lookup word).getD identifier

/-- The kinds whose tokens differ in their text. -/
def hasOwnText : Kind → Bool
  | identifier | integer | float | illegal => true
  | _ => false

end Kind

/-- A token: its kind, its text and the bytes of the source it covers. -/
structure Token where
  kind : Kind
  literal : String
  span : Span
  deriving DecidableEq, Repr, Inhabited

namespace Token

/-- The token that stands for the end of an input of some bytes. -/
def endOfInput (offset : Nat) : Token :=
  { kind := .eof, literal := "", span := ⟨offset, offset⟩ }

/-- Where a token begins. -/
def start (token : Token) : Nat :=
  token.span.start

/-- Where a token ends. -/
def stop (token : Token) : Nat :=
  token.span.stop

/-- A token in words: its kind and its text. -/
def describe (token : Token) : String :=
  token.kind.name ++ " " ++ token.literal

/-- A token on a line of the token listing, which gives the text where the kind does not. -/
def listing (token : Token) : String :=
  if token.kind.hasOwnText then
    token.kind.name ++ " (" ++ token.literal ++ ")"
  else
    token.kind.name

end Token

end LetLang
