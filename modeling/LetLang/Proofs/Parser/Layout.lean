import LetLang.Proofs.Parser.Agreement
import LetLang.Proofs.Parser.Concatenation
import LetLang.Proofs.Token.Window

/-!
# A text without its layout

**Input.** A source text.

**Result.** The tokens of the text can be parsed without the text, with their numbers for places.
What comes of this depends on nothing but the kinds and the literals of the tokens.
`Parser.exists_bare`: it is what the text is parsed to, but for the places, and these are found
again by looking up the tokens in the text.
-/

namespace LetLang

namespace Token

/-- What a token is, apart from its place. -/
def look (token : Token) : Kind × String :=
  (token.kind, token.literal)

/-- A token whose place is its number among the tokens of a text.  Every token has two places, where
it begins and where it ends, but for the end of the input, which has one. -/
def numbered (number : Nat) (look : Kind × String) : Token :=
  { kind := look.1
    literal := look.2
    span := ⟨2 * number, if look.1 = .eof then 2 * number else 2 * number + 1⟩ }

/-- Where in a list of tokens the one with a number begins or ends.  Behind the last of them this is
where the end is. -/
def placeAmong (tokens : List Token) (last : Token) (place : Nat) : Nat :=
  if place % 2 = 0 then
    (tokens[place / 2]?.getD last).start
  else
    (tokens[place / 2]?.getD last).stop

/-- Where in a text the token with a number begins or ends. -/
def byteAt (source : String) : Nat → Nat :=
  placeAmong (tokenize source) (.endOfInput source.utf8ByteSize)

section Numbered

variable {source : String} {tokens : List Token} {number : Nat} {last token : Token}

@[simp] theorem start_numbered (look : Kind × String) :
    (numbered number look).start = 2 * number :=
  rfl

theorem placeAmong_even :
    placeAmong tokens last (2 * number) = (tokens[number]?.getD last).start := by
  rw [placeAmong, if_pos (Nat.mul_mod_right 2 number), Nat.mul_div_cancel_left number (by decide)]

theorem placeAmong_odd :
    placeAmong tokens last (2 * number + 1) = (tokens[number]?.getD last).stop := by
  have odd : ¬ (2 * number + 1) % 2 = 0 := by omega
  have half : (2 * number + 1) / 2 = number := by omega
  rw [placeAmong, if_neg odd, half]

/-- The tokens of a text have their places in it. -/
theorem byteAt_even :
    byteAt source (2 * number) = (ofSource source number).start :=
  placeAmong_even

theorem byteAt_odd :
    byteAt source (2 * number + 1) = (ofSource source number).stop :=
  placeAmong_odd

theorem ofSource_of_getElem? (found : (tokenize source)[number]? = some token) :
    ofSource source number = token := by
  rw [ofSource, found]
  rfl

/-- A token is found again under its number. -/
theorem relocate_numbered (found : tokens[number]? = some token) (notEnd : token.kind ≠ .eof) :
    (numbered number token.look).relocate (placeAmong tokens last) = token := by
  simp only [numbered, look, relocate, Span.relocate, notEnd, if_false, placeAmong_even,
    placeAmong_odd, found]
  rfl

/-- The tokens of a text, numbered. -/
def allNumbered (source : String) : List Token :=
  (tokenize source).mapIdx fun number token => numbered number token.look

theorem getElem?_allNumbered (source : String) (number : Nat) :
    (allNumbered source)[number]? =
      ((tokenize source).map look)[number]?.map (numbered number) := by
  rw [allNumbered, List.getElem?_mapIdx, List.getElem?_map, Option.map_map]
  rfl

/-- As far as the tokens of two texts look the same, they are the same when numbered. -/
theorem take_allNumbered {first second : String} {count : Nat}
    (same : ((tokenize first).take count).map look = ((tokenize second).take count).map look) :
    (allNumbered first).take count = (allNumbered second).take count := by
  refine List.ext_getElem? fun number => ?_
  rw [List.map_take, List.map_take] at same
  have found := congrArg (·[number]?) same
  simp only [List.getElem?_take] at found
  simp only [List.getElem?_take, getElem?_allNumbered]
  split
  · rename_i inside
    simp only [inside, if_true] at found
    rw [found]
  · rfl

/-- A numbered token begins at the double of its number. -/
theorem start_of_mem_allNumbered (mem : token ∈ allNumbered source) :
    ∃ number, number < (tokenize source).length ∧ token.start = 2 * number := by
  obtain ⟨number, inside, rfl⟩ := List.mem_mapIdx.mp mem
  exact ⟨number, inside, rfl⟩

end Numbered

end Token

namespace Parser

/-- A parser at the first token of a text without its layout. -/
def bare (source : String) : Parser :=
  { ofSource source with
    stream :=
      { tokens := (Token.scan 0 source.toList).mapIdx fun number token =>
          Token.numbered number token.look
        stop := 2 * (Token.scan 0 source.toList).length } }

variable (source : String)

theorem ahead_bare :
    (bare source).ahead = Token.allNumbered source := by
  rw [Token.allNumbered, tokenize, List.mapIdx_concat]
  rfl

theorem regular_bare :
    (bare source).Regular := by
  constructor
  · rfl
  · intro token mem
    obtain ⟨number, inside, rfl⟩ := List.mem_mapIdx.mp mem
    have spelled := Token.spelled_of_mem_scan (List.getElem_mem inside)
    exact spelled
  · rw [Ordered, ahead_bare, List.pairwise_iff_getElem]
    intro number later _ _ before
    simp only [Token.allNumbered, List.getElem_mapIdx, Token.start_numbered]
    omega

/-- Tokens that look like those of a text are these with their numbers for places, put back. -/
theorem map_relocate_bare {source : String} {tokens : List Token}
    (same : (Token.scan 0 source.toList).map Token.look = tokens.map Token.look)
    (rest : List Token) (last : Token) :
    (bare source).stream.tokens.map (Token.relocate (Token.placeAmong (tokens ++ rest) last)) =
      tokens := by
  have count : (Token.scan 0 source.toList).length = tokens.length := by
    simpa using congrArg List.length same
  refine List.ext_getElem (by simp [bare, count]) ?_
  intro number _ inside
  have inside' : number < (Token.scan 0 source.toList).length := by rwa [count]
  have looks : (Token.scan 0 source.toList)[number].look = tokens[number].look := by
    have found := congrArg (·[number]?) same
    simpa [inside, inside'] using found
  have notEnd : tokens[number].kind ≠ .eof := by
    have spelled := Token.spelled_of_mem_scan (List.getElem_mem inside')
    intro atEnd
    exact spelled.spells.ne_eof ((congrArg Prod.fst looks).trans atEnd)
  have found : (tokens ++ rest)[number]? = some tokens[number] := by
    rw [List.getElem?_append_left inside, List.getElem?_eq_getElem inside]
  simp only [bare, List.getElem_map, List.getElem_mapIdx, looks]
  exact Token.relocate_numbered found notEnd

/-- The text stands to its numbered tokens as a text to one that was moved. -/
theorem links_bare (event : Event) :
    Embedding.Links ⟨Token.byteAt source, [], (ofSource source).stream.stop, none⟩
      (bare source) ((ofSource source).note event) := by
  have tokens : (bare source).stream.tokens.map (Token.relocate (Token.byteAt source)) =
      Token.scan 0 source.toList :=
    map_relocate_bare rfl _ _
  have stop : (ofSource source).stream.stop =
      Token.byteAt source (2 * (Token.scan 0 source.toList).length) := by
    have found : (tokenize source)[(Token.scan 0 source.toList).length]? =
        some (.endOfInput (ofSource source).stream.stop) :=
      List.getElem?_concat_length
    rw [Token.byteAt_even, Token.ofSource_of_getElem? found]
    rfl
  exact ⟨tokens.symm.trans (List.append_nil _).symm, stop, rfl, rfl, rfl, rfl, rfl⟩

/-- With fuel enough the numbered tokens of a text are parsed to what the text is parsed to, but for
the places. -/
theorem exists_bare {fuel : Nat} (enough : (bare source).fuel ≤ fuel) :
    ∃ all ended, Grammar.statements fuel [] (bare source) = .done all ended ∧
      (parse source).program.statements = all.map (Stmt.relocate (Token.byteAt source)) ∧
      (parse source).diagnostics =
        ended.diagnostics.toList.map (Diagnostic.relocate (Token.byteAt source)) := by
  obtain ⟨_, event, ended', done', recorded⟩ := exists_statements_eq_done source
  obtain ⟨all, ended, done⟩ := @Grammar.statements_succeeds _ [] (bare source) enough
  obtain ⟨statements, diagnostics⟩ :=
    Embedding.statements_of_links rfl (links_bare source event) done done'
  exact ⟨all, ended, done, statements, recorded.trans diagnostics⟩

end Parser
end LetLang
