import LetLang.Token.Scan

/-!
# Token streams

A stream holds the tokens that have not been passed.  Two of them can be seen, the current one
and the next one; behind the last token both are the end of the input, however often the stream
is advanced.
-/

namespace LetLang

/-- The tokens not passed yet, the end of the input left out, and the offset of that end. -/
structure TokenStream where
  tokens : List Token
  stop : Nat
  deriving DecidableEq, Repr

namespace TokenStream

/-- The stream of all tokens of a text. -/
def ofSource (source : String) : TokenStream :=
  { tokens := Token.scan 0 source.toList
    stop := Text.byteLength source.toList }

/-- The token under examination. -/
def current (stream : TokenStream) : Token :=
  stream.tokens.headD (.endOfInput stream.stop)

/-- The token behind the current one. -/
def next (stream : TokenStream) : Token :=
  stream.tokens.tail.headD (.endOfInput stream.stop)

/-- Pass the current token. -/
def advance (stream : TokenStream) : TokenStream :=
  { stream with tokens := stream.tokens.tail }

end TokenStream

end LetLang
