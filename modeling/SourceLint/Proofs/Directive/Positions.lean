/-
This file says where the directives of a text stand: in text order, each at a word boundary where a
directive is written. A directive begins with its marker, so its place is never one of a line ending
and always lies in a line.
-/
import SourceLint.Directive

namespace SourceLint.Directive

/-! ### Directives as they are written -/

/-- No word unit comes right before an offset of a text; `inWord` says whether one comes before the
text. -/
def AtBoundary (inWord : Bool) (text : Text) : Nat → Prop
  | 0 => inWord = false
  | offset + 1 => ∀ unit ∈ text[offset]?, unit.isWordUnit = false

/-- Behind its first unit a text has the boundaries that it has with that unit. -/
theorem atBoundary_cons_iff (inWord : Bool) (unit : CodeUnit) (rest : Text) (offset : Nat) :
    AtBoundary inWord (unit :: rest) (offset + 1) ↔ AtBoundary unit.isWordUnit rest offset := by
  cases offset <;> simp [AtBoundary]

/-- A directive that is found is written at a word boundary. -/
theorem exists_of_mem_writtenFrom {position : Nat} {inWord : Bool} {skipped : Nat} {text : Text}
    {found : Nat × Written} (member : found ∈ writtenFrom position inWord skipped text) :
    ∃ offset, found.1 = position + offset ∧ AtBoundary inWord text offset ∧
      written? (text.drop offset) = some found.2 := by
  fun_induction writtenFrom position inWord skipped text with
  | case1 => exact absurd member List.not_mem_nil
  | case2 position inWord skipped unit rest inductionHypothesis =>
    obtain ⟨offset, place, boundary, written⟩ := inductionHypothesis member
    exact ⟨offset + 1, by omega, (atBoundary_cons_iff _ _ _ _).mpr boundary, written⟩
  | case3 position inWord unit rest written here inductionHypothesis =>
    rcases List.mem_cons.mp member with rfl | later
    · cases inWord with
      | true => exact absurd here (by simp)
      | false => exact ⟨0, rfl, rfl, here⟩
    · obtain ⟨offset, place, boundary, written⟩ := inductionHypothesis later
      exact ⟨offset + 1, by omega, (atBoundary_cons_iff _ _ _ _).mpr boundary, written⟩
  | case4 position inWord unit rest here inductionHypothesis =>
    obtain ⟨offset, place, boundary, written⟩ := inductionHypothesis member
    exact ⟨offset + 1, by omega, (atBoundary_cons_iff _ _ _ _).mpr boundary, written⟩

/-- Directives are found from the left to the right. -/
theorem writtenFrom_pairwise (position : Nat) (inWord : Bool) (skipped : Nat) (text : Text) :
    (writtenFrom position inWord skipped text).Pairwise fun earlier later =>
      earlier.1 < later.1 := by
  fun_induction writtenFrom position inWord skipped text with
  | case1 => exact List.Pairwise.nil
  | case2 _ _ _ _ _ inductionHypothesis => exact inductionHypothesis
  | case3 position inWord unit rest written here inductionHypothesis =>
    refine List.pairwise_cons.mpr ⟨fun later member => ?_, inductionHypothesis⟩
    obtain ⟨offset, place, _⟩ := exists_of_mem_writtenFrom member
    show position < later.1
    omega
  | case4 _ _ _ _ _ inductionHypothesis => exact inductionHypothesis

/-- A directive begins with the marker. -/
theorem startsWith_of_written (text : Text) (written : Written)
    (found : written? text = some written) : text.startsWith (marker ++ ":") := by
  by_cases starts : text.startsWith (marker ++ ":")
  · exact starts
  · rw [written?, if_neg starts] at found
    exact absurd found (by simp)

/-! ### The directives for a check -/

variable (content check : Text)

/-- The directives for a check come in text order, no two at one place. -/
theorem find_pairwise :
    (find content check).Pairwise fun earlier later => earlier.index < later.index := by
  refine List.pairwise_filterMap.mpr ((writtenFrom_pairwise 0 false 0 content).imp ?_)
  rintro ⟨_, _⟩ ⟨_, _⟩ before directive isEarlier next isLater
  obtain ⟨_, earlierSame⟩ := Option.ite_none_right_eq_some.mp isEarlier
  obtain ⟨_, laterSame⟩ := Option.ite_none_right_eq_some.mp isLater
  cases earlierSame
  cases laterSame
  exact before

/-- A directive for a check is written at its place. -/
theorem written_of_mem_find (directive : Directive) (member : directive ∈ find content check) :
    ∃ written, written? (content.drop directive.index) = some written := by
  obtain ⟨⟨index, written⟩, found, selected⟩ := List.mem_filterMap.mp member
  obtain ⟨_, same⟩ := Option.ite_none_right_eq_some.mp selected
  cases same
  obtain ⟨offset, place, _, here⟩ := exists_of_mem_writtenFrom found
  have samePlace : index = offset := place.trans (Nat.zero_add offset)
  subst samePlace
  exact ⟨written, here⟩

/-- The unit at the place of a directive is the first one of the marker. -/
theorem unit_of_mem_find (directive : Directive) (member : directive ∈ find content check) :
    content[directive.index]? = some ('r' : CodeUnit) := by
  obtain ⟨written, here⟩ := written_of_mem_find content check directive member
  have starts := startsWith_of_written _ _ here
  rw [Text.startsWith, List.isPrefixOf_iff_prefix] at starts
  obtain ⟨rest, whole⟩ := starts
  have first : (content.drop directive.index)[0]? = some ('r' : CodeUnit) := by
    rw [← whole]
    rfl
  rwa [List.getElem?_drop, Nat.add_zero] at first

theorem index_lt_of_mem_find (directive : Directive) (member : directive ∈ find content check) :
    directive.index < content.length :=
  (List.getElem?_eq_some_iff.mp (unit_of_mem_find content check directive member)).1

end SourceLint.Directive
