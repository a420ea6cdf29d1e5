/-
This file says that the walk along a text misses no directive: what is written at a word boundary is
found, except within a directive that was found before.
-/
import SourceLint.Proofs.Directive.Written

namespace SourceLint.Directive

/-- An offset lies behind the start of a directive and before its end. -/
def Covers (found : Nat × Written) (position : Nat) : Prop :=
  found.1 < position ∧ position < found.1 + found.2.length

/-- A directive that is written at a word boundary is found, unless it begins within one that is
found before. -/
theorem mem_writtenFrom_of_written {position : Nat} {inWord : Bool} {skipped : Nat} {text : Text}
    {offset : Nat} {written : Written} (boundary : AtBoundary inWord text offset)
    (here : written? (text.drop offset) = some written) (behind : skipped ≤ offset)
    (uncovered : ∀ found ∈ writtenFrom position inWord skipped text,
      ¬Covers found (position + offset)) :
    (position + offset, written) ∈ writtenFrom position inWord skipped text := by
  fun_induction writtenFrom position inWord skipped text generalizing offset with
  | case1 =>
    rw [List.drop_nil] at here
    cases here
  | case2 position inWord skipped unit rest inductionHypothesis =>
    obtain ⟨previous, rfl⟩ := Nat.exists_eq_add_of_le' (Nat.le_trans (Nat.le_add_left 1 _) behind)
    rw [← Nat.add_assoc, Nat.add_right_comm] at uncovered ⊢
    exact inductionHypothesis ((atBoundary_cons_iff _ _ _ _).mp boundary) here
      (Nat.le_of_succ_le_succ behind) uncovered
  | case3 position inWord unit rest first found inductionHypothesis =>
    obtain ⟨notFirst, others⟩ := List.forall_mem_cons.mp uncovered
    cases offset with
    | zero =>
      rw [if_neg (Bool.not_eq_true _ ▸ boundary)] at found
      cases found.symm.trans here
      exact List.mem_cons_self
    | succ previous =>
      rw [← Nat.add_assoc, Nat.add_right_comm] at notFirst others ⊢
      refine List.mem_cons_of_mem _ (inductionHypothesis ((atBoundary_cons_iff _ _ _ _).mp boundary)
        here ?_ others)
      dsimp only [Covers] at notFirst
      omega
  | case4 position inWord unit rest notFound inductionHypothesis =>
    cases offset with
    | zero =>
      rw [if_neg (Bool.not_eq_true _ ▸ boundary)] at notFound
      cases notFound.symm.trans here
    | succ previous =>
      rw [← Nat.add_assoc, Nat.add_right_comm] at uncovered ⊢
      exact inductionHypothesis ((atBoundary_cons_iff _ _ _ _).mp boundary) here (Nat.zero_le _)
        uncovered

/-- The directives of a text, whatever checks they name. -/
def all (content : Text) : List (Nat × Written) := writtenFrom 0 false 0 content

/-- A directive of a text is written at its place, which is a word boundary. -/
theorem written_of_mem_all {content : Text} {found : Nat × Written} (member : found ∈ all content) :
    AtBoundary false content found.1 ∧ written? (content.drop found.1) = some found.2 := by
  obtain ⟨offset, place, boundary, here⟩ := exists_of_mem_writtenFrom member
  rw [Nat.zero_add] at place
  subst place
  exact ⟨boundary, here⟩

/-- A directive for a check is one of the directives that applies to it. -/
theorem mem_find_iff (content check : Text) (directive : Directive) :
    directive ∈ find content check ↔
      ∃ written, (directive.index, written) ∈ all content ∧ written.appliesTo check = true ∧
        directive.enables = written.enables ∧ directive.nextLine = written.nextLine := by
  rw [find, List.mem_filterMap]
  constructor
  · rintro ⟨⟨index, written⟩, member, selected⟩
    obtain ⟨applies, same⟩ := Option.ite_none_right_eq_some.mp selected
    cases same
    exact ⟨written, member, applies, rfl, rfl⟩
  · rintro ⟨written, member, applies, enables, nextLine⟩
    refine ⟨_, member, ?_⟩
    obtain ⟨index, _, _⟩ := directive
    cases enables
    cases nextLine
    exact if_pos applies

end SourceLint.Directive
