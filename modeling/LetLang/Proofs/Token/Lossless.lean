import LetLang.Proofs.Token.Longest
import LetLang.Token.Cursor

/-!
# Nothing of a text is lost

**Input.** A source text.

**Result.** `Token.tokenize_lossless`: the tokens of a text are pieces of it, each at the bytes
that its span names, one behind the other and with blanks between them, so that the gaps and the
literals together are the text again.  The last token, and no other, is the end of the input; a
cursor that has come to it reads it again and again.

All this is read off the cut of the text that the tokens are, `Token.Segments`, with what stands
before the cut as a parameter, since spans count from the beginning of the whole text.
-/

namespace LetLang

namespace Text

/-- The bytes of a text are those of its UTF-8 form. -/
theorem byteLength_toList (s : String) :
    byteLength s.toList = s.utf8ByteSize := by
  have ofList (text : List Char) : byteLength text = (String.ofList text).utf8ByteSize := by
    induction text with
    | nil =>
        rfl
    | cons c cs ih =>
        rw [byteLength_cons, ih, ← List.singleton_append, String.ofList_append,
          String.utf8ByteSize_append]
        simp
  rw [ofList, String.ofList_toList]

theorem byteLength_pos {text : List Char} (h : text ≠ []) :
    0 < byteLength text := by
  cases text with
  | nil =>
      exact absurd rfl h
  | cons c cs =>
      have := c.utf8Size_pos
      rw [byteLength_cons]
      omega

theorem splitAtByte?_cons {offset : Nat} {c : Char} {cs : List Char}
    (fits : c.utf8Size ≤ offset) :
    splitAtByte? offset (c :: cs) =
      (splitAtByte? (offset - c.utf8Size) cs).map fun (front, back) => (c :: front, back) := by
  cases offset with
  | zero =>
      have := c.utf8Size_pos
      omega
  | succ offset =>
      simp only [splitAtByte?, fits, if_true]

theorem splitAtByte?_append (front back : List Char) :
    splitAtByte? (byteLength front) (front ++ back) = some (front, back) := by
  induction front with
  | nil =>
      simp [splitAtByte?]
  | cons c cs ih =>
      rw [List.cons_append, byteLength_cons, splitAtByte?_cons (Nat.le_add_right _ _),
        Nat.add_sub_cancel_left, ih]
      rfl

/-- The piece of a text that covers some bytes; `none` unless these begin and end between two
characters. -/
def slice? (span : Span) (text : List Char) : Option (List Char) := do
  let (_, back) ← splitAtByte? span.start text
  let (piece, _) ← splitAtByte? (span.stop - span.start) back
  pure piece

theorem slice?_append (before piece behind : List Char) :
    slice? ⟨byteLength before, byteLength before + byteLength piece⟩
      (before ++ (piece ++ behind)) = some piece := by
  simp [slice?, splitAtByte?_append]

end Text

open Text

namespace Token

/-- The bytes between an offset and a token, and between one token and the next. -/
def gaps : Nat → List Token → List Span
  | _, [] => []
  | offset, token :: others => ⟨offset, token.start⟩ :: gaps token.stop others

/-- A text put together from gaps and the literals behind them. -/
def interleave (text : List Char) (offset : Nat) (tokens : List Token) : List Char :=
  ((gaps offset tokens).zip tokens).flatMap fun (gap, token) =>
    (slice? gap text).getD [] ++ token.literal.toList

theorem interleave_cons (text : List Char) (offset : Nat) (token : Token) (others : List Token) :
    interleave text offset (token :: others) =
      (slice? ⟨offset, token.start⟩ text).getD [] ++ token.literal.toList ++
        interleave text token.stop others := by
  simp [interleave, gaps]

section Segments

variable {offset stop : Nat} {before text : List Char} {tokens : List Token}

/-- The tokens of a cut are pieces of the text, and none of them is empty. -/
theorem Segments.pieces
    (h : Segments offset text tokens) (size : byteLength before = offset) :
    ∀ token ∈ tokens, token.kind ≠ .eof ∧ token.start < token.stop ∧
      slice? token.span (before ++ text) = some token.literal.toList := by
  induction h generalizing before with
  | gap =>
      simp
  | @token offset gap text rest kind tokens _ occurs _ ih =>
      intro token mem
      rcases List.mem_cons.mp mem with rfl | later
      · have positive := byteLength_pos occurs.ne_nil
        refine ⟨occurs.spells.1.ne_eof, Nat.lt_add_of_pos_right positive, ?_⟩
        have piece := slice?_append (before ++ gap) text rest
        simpa [size] using piece
      · have here : byteLength (before ++ (gap ++ text)) =
            offset + byteLength gap + byteLength text := by
          simp [size, Nat.add_assoc]
        have piece := ih here token later
        simpa using piece

/-- The tokens of a cut stand one behind the other, and all before the end of the text. -/
theorem Segments.ordered
    (h : Segments offset text tokens) (ends : offset + byteLength text = stop) :
    (∀ token ∈ tokens ++ [endOfInput stop], offset ≤ token.start) ∧
      (tokens ++ [endOfInput stop]).Pairwise fun token next =>
        token.start < token.stop ∧ token.stop ≤ next.start := by
  induction h with
  | gap =>
      simp only [List.nil_append, List.forall_mem_singleton, List.pairwise_singleton, and_true]
      exact ends ▸ Nat.le_add_right _ _
  | @token offset gap text rest kind tokens _ occurs _ ih =>
      have positive := byteLength_pos occurs.ne_nil
      obtain ⟨behind, ordered⟩ := ih (by simpa [Nat.add_assoc] using ends)
      constructor
      · intro token mem
        rcases List.mem_cons.mp mem with rfl | later
        · exact Nat.le_add_right _ _
        · have := behind token later
          omega
      · exact List.pairwise_cons.mpr
          ⟨fun next later => ⟨Nat.lt_add_of_pos_right positive, behind next later⟩, ordered⟩

/-- The bytes between the tokens of a cut are blank, up to the end of the text, and with the
literals they are the text. -/
theorem Segments.interleave_eq
    (h : Segments offset text tokens) (size : byteLength before = offset)
    (ends : offset + byteLength text = stop) :
    (∀ gap ∈ gaps offset (tokens ++ [endOfInput stop]),
        ∃ blanks, slice? gap (before ++ text) = some blanks ∧ ∀ c ∈ blanks, isBlank c) ∧
      interleave (before ++ text) offset (tokens ++ [endOfInput stop]) = text := by
  induction h generalizing before with
  | @gap offset gap blank =>
      have piece := slice?_append before gap []
      rw [size, ends, List.append_nil] at piece
      simpa [interleave, gaps, endOfInput, start, piece] using blank
  | @token offset gap text rest kind tokens blank occurs _ ih =>
      have here : byteLength (before ++ (gap ++ text)) =
          offset + byteLength gap + byteLength text := by
        simp [size, Nat.add_assoc]
      obtain ⟨blankBehind, same⟩ := ih here (by simpa [Nat.add_assoc] using ends)
      have piece := slice?_append before gap (text ++ rest)
      rw [size] at piece
      simp only [List.append_assoc] at blankBehind same
      constructor
      · exact List.forall_mem_cons.mpr ⟨⟨gap, piece, blank⟩, blankBehind⟩
      · rw [List.cons_append, interleave_cons]
        simp only [start, piece, Option.getD_some, String.toList_ofList, List.append_assoc]
        exact congrArg (fun others => gap ++ (text ++ others)) same

end Segments

end Token

namespace Cursor

/-- The next tokens at a cursor, as many as are asked for; `none` inside a character. -/
def read : Nat → Cursor → Option (List Token)
  | 0, _ => some []
  | count + 1, cursor => do
      let (token, behind) ← cursor.next?
      let others ← behind.read count
      pure (token :: others)

theorem read_succ
    {count : Nat} {cursor behind : Cursor} {token : Token} {others : List Token}
    (first : cursor.next? = some (token, behind)) (rest : behind.read count = some others) :
    cursor.read (count + 1) = some (token :: others) := by
  simp [read, first, rest]

/-- A cursor between two characters reads the tokens of what is left of the text, and then the end
of the input for ever. -/
theorem read_eq (count : Nat) (cursor : Cursor) (between : cursor.inside = 0) :
    cursor.read count = some ((List.range count).map fun place =>
      (Token.scan cursor.offset cursor.rest)[place]?.getD
        (.endOfInput (cursor.offset + byteLength cursor.rest))) := by
  induction count generalizing cursor with
  | zero =>
      rfl
  | succ count ih =>
      rw [List.range_succ_eq_map, List.map_cons, List.map_map]
      cases found : Token.next? cursor.offset cursor.rest with
      | none =>
          -- The cursor goes to the end of the text, and is there again in the next round.
          have first : cursor.next? = some (.endOfInput (cursor.offset + byteLength cursor.rest),
              { cursor with offset := cursor.offset + byteLength cursor.rest, rest := [] }) := by
            simp [next?, remainder?, between, found]
          rw [read_succ first (ih _ between), Token.scan_of_next?_eq_none found]
          simp [Token.scan_nil, Function.comp_def]
      | some pair =>
          obtain ⟨token, rest⟩ := pair
          have first : cursor.next? =
              some (token, { cursor with offset := token.stop, rest := rest }) := by
            simp [next?, remainder?, between, found]
          rw [read_succ first (ih _ between), Token.scan_of_next? found, Token.stop_of_next? found]
          simp [Function.comp_def]

end Cursor

namespace Token

/-- Reading past the end of a list gives the same as reading its last element. -/
theorem getD_append_self {α : Type} (items : List α) (last : α) (place : Nat) :
    (items ++ [last])[place]?.getD last = items[place]?.getD last := by
  rcases Nat.lt_or_ge place items.length with inside | beyond
  · rw [List.getElem?_append_left inside]
  · rw [List.getElem?_append_right beyond, List.getElem?_eq_none beyond]
    cases place - items.length <;> rfl

/-- The tokens of a text are its pieces, in order and with blanks between them, so that nothing of
it is lost.  The end of the input is the last of them and no other, and is read again however often
a cursor goes on. -/
theorem tokenize_lossless (source : String) :
    (∃ tokens, tokenize source =
        tokens ++ [⟨.eof, "", ⟨source.utf8ByteSize, source.utf8ByteSize⟩⟩] ∧
      ∀ token ∈ tokens, token.kind ≠ .eof ∧ token.start < token.stop ∧
        slice? token.span source.toList = some token.literal.toList) ∧
    (tokenize source).Pairwise (fun token next =>
      token.start < token.stop ∧ token.stop ≤ next.start) ∧
    (∀ gap ∈ gaps 0 (tokenize source),
      ∃ blanks, slice? gap source.toList = some blanks ∧ ∀ c ∈ blanks, isBlank c) ∧
    interleave source.toList 0 (tokenize source) = source.toList ∧
    ∀ count, (Cursor.ofSource source).read count = some ((List.range count).map fun place =>
      (tokenize source)[place]?.getD
        ⟨.eof, "", ⟨source.utf8ByteSize, source.utf8ByteSize⟩⟩) := by
  have cut := segments_scan 0 source.toList
  have ends : 0 + byteLength source.toList = source.utf8ByteSize := by
    rw [Nat.zero_add, byteLength_toList]
  have split : tokenize source =
      scan 0 source.toList ++ [endOfInput source.utf8ByteSize] := by
    rw [tokenize, byteLength_toList]
  have pieces := @Segments.pieces _ [] _ _ cut rfl
  obtain ⟨blank, whole⟩ := @Segments.interleave_eq _ _ [] _ _ cut rfl ends
  rw [split]
  refine ⟨⟨_, rfl, pieces⟩, (cut.ordered ends).2, blank, whole, ?_⟩
  intro count
  rw [Cursor.read_eq count _ rfl]
  simp only [Cursor.ofSource, ends]
  refine congrArg some (List.map_congr_left fun place _ => ?_)
  exact (getD_append_self (scan 0 source.toList) (endOfInput source.utf8ByteSize) place).symm

end Token

end LetLang
