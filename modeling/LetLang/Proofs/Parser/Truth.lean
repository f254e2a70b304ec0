import LetLang.Proofs.Parser.Reports
import LetLang.Proofs.Text.Lines

/-!
# Diagnostics are in order and true

**Input.** A source text.

**Result.** `parse_diagnostics_describe`: the diagnostics come in the order of the text.  Each of
them is at the beginning of one token, on a line of the text, and what it says is so of the token.
-/

namespace LetLang

open Text

namespace Token

/-- One token of a text begins at the place where it begins. -/
theorem filter_start_eq {tokens : List Token} {token : Token}
    (ordered : tokens.Pairwise fun token later => token.start < later.start)
    (mem : token ∈ tokens) :
    tokens.filter (fun other => other.start = token.start) = [token] := by
  induction ordered with
  | nil =>
      cases mem
  | @cons first rest before _ ih =>
      rcases List.mem_cons.mp mem with rfl | later
      · have none : rest.filter (fun other => other.start = token.start) = [] := by
          rw [List.filter_eq_nil_iff]
          intro other mem same
          have := before other mem
          rw [decide_eq_true_eq] at same
          omega
        rw [List.filter_cons_of_pos (by simp), none]
      · have other : ¬ first.start = token.start := Nat.ne_of_lt (before token later)
        rw [List.filter_cons_of_neg (by simpa using other), ih later]

/-- Where a token of a text begins, a line of the text goes on. -/
theorem isSome_at?_start {source : String} {token : Token} (mem : token ∈ tokenize source) :
    (Line.at? source.toList token.start).isSome := by
  have cut : ∃ before after,
      source.toList = before ++ after ∧ byteLength before = token.start := by
    rcases List.mem_append.mp mem with mem | mem
    · obtain ⟨_, _, piece⟩ :=
        @Segments.pieces _ [] _ _ (segments_scan 0 source.toList) rfl token mem
      obtain ⟨before, behind, whole, size, _⟩ := exists_of_slice? piece
      exact ⟨before, _, whole, size⟩
    · obtain rfl := List.mem_singleton.mp mem
      exact ⟨source.toList, [], (List.append_nil _).symm, rfl⟩
  obtain ⟨before, after, whole, size⟩ := cut
  rw [whole, ← size, Line.at?_append]
  rfl

end Token

namespace Parser

/-- What is recorded while a text is parsed is reported from its beginning on. -/
theorem exists_reports_ofSource (source : String) :
    ∃ ended : Parser, (ofSource source).Reports ended 0 ∧
      (parse source).diagnostics = ended.diagnostics.toList := by
  have regular := regular_ofSource source
  have reports (fuel : Nat) (event : Event) :
      (Grammar.statements fuel [] ((ofSource source).note event)).Meets
        (fun _ ended => (ofSource source).Reports ended 0) (fun _ _ => True) := by
    have noted : ((ofSource source).note event).Regular :=
      regular.keep rfl rfl
    refine (Grammar.statements_reports fuel [] noted).mono ?_ (fun _ _ _ => trivial)
    intro all ended reports
    exact Reports.ofExtends (Extends.note event _) rfl (reports.mono (Nat.zero_le _))
  exact exists_ended_of_meets reports

end Parser

/-- The diagnostics of a text are in its order.  Each of them is at the beginning of exactly one
token, the end of the input among them, and describes it: it says what is wrong with this token, and
it is. -/
theorem parse_diagnostics_describe (source : String) :
    ((parse source).diagnostics.map Diagnostic.position).Pairwise (· ≤ ·) ∧
    ∀ diagnostic ∈ (parse source).diagnostics,
      (Line.at? source.toList diagnostic.position).isSome ∧
      ∃ token, (tokenize source).filter (fun token => token.start = diagnostic.position) = [token] ∧
        diagnostic.Describes token := by
  obtain ⟨ended, reports, recorded⟩ := Parser.exists_reports_ofSource source
  obtain ⟨added, whole, ordered, sound⟩ := reports.recorded
  have same : (parse source).diagnostics = added := recorded.trans whole
  rw [same]
  refine ⟨List.pairwise_map.mpr ordered, ?_⟩
  intro diagnostic mem
  obtain ⟨_, token, ahead, describes⟩ := sound diagnostic mem
  rw [Parser.ahead_ofSource] at ahead
  refine ⟨?_, token, ?_, describes⟩
  · rw [describes.position]
    exact Token.isSome_at?_start ahead
  · rw [describes.position]
    exact Token.filter_start_eq (Parser.regular_ofSource source).ordered ahead

end LetLang
