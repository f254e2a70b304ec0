import LetLang.Proofs.Token.Lossless
import LetLang.Proofs.Token.Seam

/-!
# Where two texts join

**Input.** Two texts, the second of which is put behind the first.

**Result.** `tokenize_append_iff`: the tokens of the whole are those of the first text with those of
the second behind them, unless the texts fuse.  They fuse where the first text ends in a token that
would take up the first character of the second.  Then the whole has no token that ends there.
-/

namespace LetLang

open Text

theorem Kind.fuses_iff {kind : Kind} {c : Char} :
    kind.fuses c = true ↔
      (kind ∈ Kind.words ∧ isWord c) ∨ (kind = .integer ∧ (isNumber c ∨ c = '.')) ∨
        (kind = .float ∧ isNumber c) ∨ (kind ∈ [.assign, .bang] ∧ c = '=') := by
  cases kind <;> simp [fuses, words]

/-- Behind each token of a cut the text goes on with what does not fuse with it. -/
theorem Token.Segments.exists_behind
    {offset : Nat} {text : List Char} {tokens : List Token} (h : Segments offset text tokens) :
    ∀ token ∈ tokens, ∃ front rest, text = front ++ rest ∧
      offset + byteLength front = token.stop ∧ ∀ c ∈ rest.head?, token.kind.fuses c = false := by
  induction h with
  | gap =>
      simp
  | @token offset gap text rest kind tokens _ occurs _ ih =>
      intro token mem
      rcases List.mem_cons.mp mem with rfl | later
      · exact ⟨gap ++ text, rest, by simp, by simp [Token.stop, Nat.add_assoc], occurs.spells.2⟩
      · obtain ⟨front, behind, rfl, ends, parted⟩ := ih token later
        exact ⟨gap ++ text ++ front, behind, by simp, by simpa [Nat.add_assoc] using ends, parted⟩

/-- A token that ends where two texts join does not fuse with the second of them. -/
theorem Token.fuses_of_stop
    {first second : List Char} {token : Token} (mem : token ∈ scan 0 (first ++ second))
    (stop : token.stop = byteLength first) :
    ∀ c ∈ second.head?, token.kind.fuses c = false := by
  obtain ⟨front, rest, whole, ends, parted⟩ := (segments_scan 0 (first ++ second)).exists_behind
    token mem
  rw [Nat.zero_add, stop] at ends
  have same : some (first, second) = some (front, rest) := by
    rw [← splitAtByte?_append first second, ← ends, whole, splitAtByte?_append]
  cases same
  exact parted

/-- The end of the first text is inside a token of the whole: the last token of the first text ends
there, and the first character of the second would become a part of it. -/
def Fuse (first second : String) : Prop :=
  ∃ token ∈ (tokenize first).dropLast.getLast?, token.stop = byteLength first.toList ∧
    ∃ c ∈ second.toList.head?,
      (token.kind ∈ Kind.words ∧ isWord c) ∨ (token.kind = .integer ∧ (isNumber c ∨ c = '.')) ∨
        (token.kind = .float ∧ isNumber c) ∨ (token.kind ∈ [.assign, .bang] ∧ c = '=')

theorem not_fuse_iff {first second : String} :
    ¬ Fuse first second ↔
      ∀ token ∈ (Token.scan 0 first.toList).getLast?, token.stop = byteLength first.toList →
        ∀ c ∈ second.toList.head?, token.kind.fuses c = false := by
  simp only [Fuse, tokenize_dropLast, ← Kind.fuses_iff, not_exists, not_and, Bool.not_eq_true]

theorem tokenize_append_eq_iff {first second : String} :
    tokenize (first ++ second) = (tokenize first).dropLast ++
        (tokenize second).map (Token.relocate (byteLength first.toList + ·)) ↔
      Token.scan 0 (first.toList ++ second.toList) = Token.scan 0 first.toList ++
        (Token.scan 0 second.toList).map (Token.relocate (byteLength first.toList + ·)) := by
  simp only [tokenize, String.toList_append, List.dropLast_concat, List.map_append, List.map_cons,
    List.map_nil, Token.relocate_endOfInput, byteLength_append, ← List.append_assoc]
  exact List.append_left_inj _

/-- The tokens of a text behind another one are the tokens of both, those of the second moved by the
bytes of the first, exactly if the two do not fuse. -/
theorem tokenize_append_iff (first second : String) :
    tokenize (first ++ second) = (tokenize first).dropLast ++
        (tokenize second).map (Token.relocate (byteLength first.toList + ·)) ↔
      ¬ Fuse first second := by
  rw [tokenize_append_eq_iff, not_fuse_iff]
  constructor
  · intro same token last stop
    refine Token.fuses_of_stop ?_ stop
    rw [same]
    exact List.mem_append_left _ (List.mem_of_mem_getLast? last)
  · intro apart
    rw [Token.scan_append (by simpa using apart), Nat.zero_add, ← Token.scan_zero_add]

end LetLang
