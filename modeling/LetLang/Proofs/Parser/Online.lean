import LetLang.Proofs.Parser.Layout

/-!
# Diagnostics are online

**Input.** Two source texts whose first tokens are of the same kinds and have the same literals.

**Result.** `parse_diagnostics_online`: the diagnostics at these tokens are the same in both texts
and in the same order.  So nothing that comes later in a text adds a diagnostic at an earlier token,
takes one away or changes one.
-/

namespace LetLang

namespace Token

/-- Among the first tokens of a text, the one that begins where a token begins is this token. -/
theorem findIdx?_start {source : String} {number count : Nat} {token : Token}
    (found : (tokenize source)[number]? = some token) :
    ((tokenize source).take count).findIdx? (fun other => other.start = token.start) =
      if number < count then some number else none := by
  have ordered := (Parser.regular_ofSource source).ordered
  rw [Parser.Ordered, Parser.ahead_ofSource, List.pairwise_iff_getElem] at ordered
  obtain ⟨inside, rfl⟩ := List.getElem?_eq_some_iff.mp found
  by_cases first : number < count
  · rw [if_pos first, List.findIdx?_eq_some_iff_getElem]
    refine ⟨by rw [List.length_take]; omega, by simp, ?_⟩
    intro earlier before same
    rw [List.getElem_take, decide_eq_true_eq] at same
    exact absurd same (Nat.ne_of_lt (ordered earlier number _ inside before))
  · rw [if_neg first, List.findIdx?_eq_none_iff]
    intro other mem
    obtain ⟨earlier, before, rfl⟩ := List.mem_iff_getElem.mp mem
    rw [List.length_take] at before
    rw [List.getElem_take, decide_eq_false_iff_not]
    exact Nat.ne_of_lt (ordered earlier number _ inside (by omega))

end Token

/-- The diagnostics of a text at its first tokens, as many as are asked for, each with the number of
the token at which it is. -/
def located (source : String) (count : Nat) : List (Cause × Nat) :=
  (parse source).diagnostics.filterMap fun diagnostic =>
    (((tokenize source).take count).findIdx? fun token => token.start = diagnostic.position).map
      fun number => (diagnostic.cause, number)

namespace Parser

variable {source : String}

/-- The diagnostics at the first tokens of a text are those before an offset in the numbered
tokens. -/
theorem located_eq_early {ended : Parser} {count : Nat}
    (reports : (bare source).Reports ended 0)
    (recorded : (parse source).diagnostics =
      ended.diagnostics.toList.map (Diagnostic.relocate (Token.byteAt source))) :
    located source count = (ended.early (2 * count)).map fun diagnostic =>
      (diagnostic.cause, diagnostic.position / 2) := by
  have numbered : ∀ diagnostic ∈ ended.diagnostics.toList, ∃ number token,
      (tokenize source)[number]? = some token ∧ diagnostic.position = 2 * number := by
    intro diagnostic mem
    obtain ⟨added, whole, _, sound⟩ := reports.recorded
    rw [show ended.diagnostics.toList = added from whole] at mem
    obtain ⟨_, token, ahead, describes⟩ := sound diagnostic mem
    rw [ahead_bare] at ahead
    obtain ⟨number, inside, start⟩ := Token.start_of_mem_allNumbered ahead
    exact ⟨number, _, List.getElem?_eq_getElem inside, describes.position.trans start⟩
  rw [located, recorded, early]
  generalize ended.diagnostics.toList = all at numbered
  induction all with
  | nil =>
      rfl
  | cons diagnostic rest ih =>
      obtain ⟨here, later⟩ := List.forall_mem_cons.mp numbered
      obtain ⟨number, token, found, position⟩ := here
      have start : (diagnostic.relocate (Token.byteAt source)).position = token.start := by
        rw [Diagnostic.relocate, position, Token.byteAt_even, Token.ofSource_of_getElem? found]
      rw [List.map_cons, List.filterMap_cons, start, Token.findIdx?_start found, ih later]
      by_cases first : number < count
      · have near : diagnostic.position < 2 * count := by omega
        have half : diagnostic.position / 2 = number := by omega
        rw [List.filter_cons_of_pos (by simpa using near), List.map_cons, if_pos first, half]
        rfl
      · have far : ¬ diagnostic.position < 2 * count := by omega
        rw [List.filter_cons_of_neg (by simpa using far), if_neg first]
        rfl

/-- Nothing is before the beginning of a text. -/
theorem early_zero (parser : Parser) :
    parser.early 0 = [] := by
  rw [early, List.filter_eq_nil_iff]
  intro diagnostic _
  simp

/-- Parsers before numbered tokens of which the first ones are the same are together. -/
theorem together_bare {first second : String} {count : Nat}
    (same : (Token.allNumbered first).take (count + 1) =
      (Token.allNumbered second).take (count + 1)) :
    Together (2 * (count + 1)) (bare first) (bare second) := by
  have far (source : String) (token : Token)
      (mem : token ∈ (Token.allNumbered source).drop (count + 1)) :
      2 * (count + 1) ≤ token.start := by
    obtain ⟨number, _, rfl⟩ := List.mem_iff_getElem.mp mem
    rw [List.getElem_drop]
    simp only [Token.allNumbered, List.getElem_mapIdx, Token.start_numbered]
    omega
  have whole := List.take_append_drop (count + 1) (Token.allNumbered first)
  have whole' := List.take_append_drop (count + 1) (Token.allNumbered second)
  rw [← same] at whole'
  refine ⟨regular_bare first, regular_bare second, ?_, rfl, rfl⟩
  cases shared : (Token.allNumbered first).take (count + 1) with
  | nil =>
      have begun := ahead_bare first
      rw [ahead_eq_cons] at begun
      rw [← begun] at shared
      cases shared
  | cons token shared' =>
      rw [shared] at whole whole'
      refine ⟨token, shared', _, _, (ahead_bare first).trans whole.symm,
        (ahead_bare second).trans whole'.symm, ?_⟩
      intro other mem
      rcases List.mem_append.mp mem with mem | mem
      · exact far first other mem
      · exact far second other mem

end Parser

/-- As far as the tokens of two texts are of the same kinds and have the same literals, so far the
texts have the same diagnostics, in the same order, whatever follows in either of them. -/
theorem parse_diagnostics_online (first second : String) (count : Nat)
    (same : ((tokenize first).take count).map Token.look =
      ((tokenize second).take count).map Token.look) :
    located first count = located second count := by
  let fuel := max (Parser.bare first).fuel (Parser.bare second).fuel
  obtain ⟨all, ended, done, _, recorded⟩ :=
    Parser.exists_bare first (Nat.le_max_left _ _ : _ ≤ fuel)
  obtain ⟨all', ended', done', _, recorded'⟩ :=
    Parser.exists_bare second (Nat.le_max_right _ _ : _ ≤ fuel)
  have reports := Grammar.statements_reports fuel [] (Parser.regular_bare first)
  have reports' := Grammar.statements_reports fuel [] (Parser.regular_bare second)
  rw [Step.Reports, done] at reports
  rw [Step.Reports, done'] at reports'
  rw [Parser.located_eq_early (Parser.Reports.mono reports (Nat.zero_le _)) recorded,
    Parser.located_eq_early (Parser.Reports.mono reports' (Nat.zero_le _)) recorded']
  congr 1
  cases count with
  | zero =>
      exact (Parser.early_zero ended).trans (Parser.early_zero ended').symm
  | succ count =>
      have together := Parser.together_bare (Token.take_allNumbered same)
      have agrees := Grammar.statements_agrees _ fuel [] together
      rw [Step.Agrees, done, done'] at agrees
      cases agrees with
      | done further =>
          exact further.early.symm
      | parted past past' =>
          exact past.early.trans past'.early.symm

/-- The second text goes on where the first one ends, with a block that is not closed. -/
theorem parse_diagnostics_online_unclosed :
    ((tokenize "let 5; x").take 3).map Token.look =
        ((tokenize "let 5 ; if (x) \x7b )").take 3).map Token.look ∧
      located "let 5; x" 3 = located "let 5 ; if (x) \x7b )" 3 := by
  have same : ((tokenize "let 5; x").take 3).map Token.look =
      ((tokenize "let 5 ; if (x) \x7b )").take 3).map Token.look := by
    decide +kernel
  exact ⟨same, parse_diagnostics_online _ _ 3 same⟩

end LetLang
