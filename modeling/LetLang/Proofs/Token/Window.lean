import LetLang.Proofs.Token.Lossless

/-!
# The window on a text

A parser need not have all tokens of a text at once.  It is enough to hold two of them with the
cursor behind the second, and to pull the next token from the cursor when the first is passed.

**Input.** A source text, and how many tokens have been passed.

**Result.** `Window.exists_after?`: the window is never without a token.  It holds the two tokens of
the text at that place, or the end of the input where there are no more, and its cursor is just
behind the latter of them.
-/

namespace LetLang

open Text

namespace Token

/-- The token of a text at a place.  Behind the last one the end of the input is repeated. -/
def ofSource (source : String) (place : Nat) : Token :=
  (tokenize source)[place]?.getD (.endOfInput source.utf8ByteSize)

theorem ofSource_eq_headD (source : String) (place : Nat) :
    ofSource source place =
      ((scan 0 source.toList).drop place).headD (.endOfInput source.utf8ByteSize) := by
  rw [ofSource, tokenize, byteLength_toList, getD_append_self, List.headD_eq_head?_getD,
    List.head?_drop]

end Token

namespace Cursor

/-- A cursor between two characters of a text, at an offset. -/
structure StandsAt (cursor : Cursor) (source : String) (offset : Nat) : Prop where
  sameSource : cursor.source = source
  sameOffset : cursor.offset = offset
  between : cursor.inside = 0
  split : ∃ before, source.toList = before ++ cursor.rest ∧ byteLength before = offset

/-- A cursor between two characters of a text, from which some tokens are left. -/
structure Leaves (cursor : Cursor) (source : String) (tokens : List Token) : Prop where
  standsAt : cursor.StandsAt source cursor.offset
  left : Token.scan cursor.offset cursor.rest = tokens

theorem leaves_ofSource (source : String) :
    (ofSource source).Leaves source (Token.scan 0 source.toList) :=
  ⟨⟨rfl, rfl, rfl, [], rfl, rfl⟩, rfl⟩

/-- The next token is the first of those that are left, and the cursor goes just behind it. -/
theorem Leaves.next?
    {cursor : Cursor} {source : String} {tokens : List Token} (h : cursor.Leaves source tokens) :
    ∃ behind, cursor.next? = some (tokens.headD (.endOfInput source.utf8ByteSize), behind) ∧
      behind.Leaves source tokens.tail ∧
      behind.offset = (tokens.headD (.endOfInput source.utf8ByteSize)).stop := by
  obtain ⟨sameSource, _, between, before, whole, size⟩ := h.standsAt
  have left := h.left
  cases found : Token.next? cursor.offset cursor.rest with
  | none =>
      have stop : cursor.offset + byteLength cursor.rest = source.utf8ByteSize := by
        rw [← byteLength_toList, whole, byteLength_append, size]
      have atEnd : Cursor.StandsAt
          { cursor with offset := source.utf8ByteSize, rest := [] } source source.utf8ByteSize :=
        ⟨sameSource, rfl, between, source.toList, by rw [List.append_nil], byteLength_toList _⟩
      rw [Token.scan_of_next?_eq_none found] at left
      subst left
      refine ⟨_, ?_, ⟨atEnd, Token.scan_nil⟩, rfl⟩
      simp [Cursor.next?, remainder?, between, found, stop]
  | some pair =>
      obtain ⟨token, rest⟩ := pair
      have behind : Cursor.StandsAt
          { cursor with offset := token.stop, rest := rest } source token.stop := by
        obtain ⟨kind, blanks, piece, text, _, _, rfl⟩ := Token.exists_parts_of_next? found
        refine ⟨sameSource, rfl, between, before ++ (blanks ++ piece), ?_, ?_⟩
        · rw [whole, text]
          simp only [List.append_assoc]
        · simp only [byteLength_append, size, Token.stop, Nat.add_assoc]
      rw [Token.scan_of_next? found] at left
      subst left
      refine ⟨_, ?_, ⟨behind, rfl⟩, rfl⟩
      simp [Cursor.next?, remainder?, between, found]

end Cursor

/-- Two tokens of a text, and the cursor from which the next one is pulled. -/
structure Window where
  current : Token
  next : Token
  cursor : Cursor

namespace Window

/-- The window on the first two tokens of a text. -/
def ofSource? (source : String) : Option Window := do
  let (current, cursor) ← (Cursor.ofSource source).next?
  let (next, cursor) ← cursor.next?
  pure ⟨current, next, cursor⟩

/-- Pass the current token, and pull a new one. -/
def advance? (window : Window) : Option Window := do
  let (token, cursor) ← window.cursor.next?
  pure ⟨window.next, token, cursor⟩

/-- The window on a text when some tokens have been passed. -/
def after? (source : String) : Nat → Option Window
  | 0 => ofSource? source
  | count + 1 => do
      let window ← after? source count
      window.advance?

theorem ofSource?_eq
    {source : String} {current next : Token} {behind last : Cursor}
    (first : (Cursor.ofSource source).next? = some (current, behind))
    (second : behind.next? = some (next, last)) :
    ofSource? source = some ⟨current, next, last⟩ := by
  simp [ofSource?, first, second]

theorem after?_succ_eq
    {source : String} {place : Nat} {window : Window} {token : Token} {behind : Cursor}
    (found : after? source place = some window)
    (pulled : window.cursor.next? = some (token, behind)) :
    after? source (place + 1) = some ⟨window.next, token, behind⟩ := by
  simp [after?, found, advance?, pulled]

/-- A window on the tokens of a text from a place on. -/
structure Shows (window : Window) (source : String) (place : Nat) : Prop where
  current : window.current = Token.ofSource source place
  next : window.next = Token.ofSource source (place + 1)
  cursor : window.cursor.StandsAt source (Token.ofSource source (place + 1)).stop

/-- However many tokens have been passed, there are two in the window, and the cursor leaves those
that are behind them. -/
theorem exists_after? (source : String) (place : Nat) :
    ∃ window, after? source place = some window ∧ window.Shows source place ∧
      window.cursor.Leaves source ((Token.scan 0 source.toList).drop (place + 2)) := by
  have eq_headD := Token.ofSource_eq_headD source
  induction place with
  | zero =>
      obtain ⟨behind, first, left, _⟩ := (Cursor.leaves_ofSource source).next?
      obtain ⟨last, second, rest, stop⟩ := left.next?
      rw [← List.drop_one, ← eq_headD] at second stop
      rw [← List.drop_one, ← List.drop_one, List.drop_drop] at rest
      exact ⟨_, ofSource?_eq first second, ⟨(eq_headD 0).symm, rfl, stop ▸ rest.standsAt⟩, rest⟩
  | succ place ih =>
      obtain ⟨window, found, shows, left⟩ := ih
      obtain ⟨behind, pulled, rest, stop⟩ := left.next?
      rw [← eq_headD] at pulled stop
      rw [← List.drop_one, List.drop_drop] at rest
      exact ⟨_, after?_succ_eq found pulled, ⟨shows.next, rfl, stop ▸ rest.standsAt⟩, rest⟩

end Window

end LetLang
