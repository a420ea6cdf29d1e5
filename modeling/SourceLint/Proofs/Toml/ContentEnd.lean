/-
This file says where the content of a part of a text ends. The end is found from the front, line by
line, as the end of the last line with anything but blanks. It is the same as what a search from the
back comes to: that goes back over the lines from the end of the part, and stops behind the first one
that is not blank.
-/
import Mathlib.Data.List.DropRight
import SourceLint.Proofs.Linter.Splice
import SourceLint.Proofs.Text.Cut
import SourceLint.Toml.Layout

namespace SourceLint.Toml

/-! ### From the front -/

/-- The content goes up to the end of a line that is not blank, with only blanks behind it. -/
theorem lastContentEnd_splitAt (best position : Nat) (text : Text) :
    lastContentEnd best position (Text.splitAt 0x0A text) = best ∧
        (∀ unit ∈ text, unit.isBlank = true) ∨
      ∃ above line behind, text = above ++ line ++ behind ∧
        lastContentEnd best position (Text.splitAt 0x0A text) =
          position + (above ++ line).length ∧
        (∀ unit ∈ behind, unit.isBlank = true) ∧
        (behind = [] ∨ ∃ before, line = before ++ [0x0A]) ∧
        (∃ unit ∈ line, unit.isBlank = false) ∧ 0x0A ∉ line.dropLast := by
  have inked {line : Text} (notBlank : ¬line.all CodeUnit.isBlank = true) :
      ∃ unit ∈ line, unit.isBlank = false := by
    simpa using notBlank
  induction text using Text.inductionOnParts 0x0A generalizing best position with
  | last part noBreak =>
    rw [Text.splitAt_of_not_mem noBreak, lastContentEnd]
    split
    case isTrue isBlank => exact Or.inl ⟨rfl, List.all_eq_true.mp isBlank⟩
    case isFalse notBlank =>
      exact Or.inr ⟨[], part, [], by simp, rfl, List.forall_mem_nil _, Or.inl rfl, inked notBlank,
        fun member => noBreak ((List.dropLast_sublist part).subset member)⟩
  | more part rest noBreak inductionHypothesis =>
    obtain ⟨next, others, splits⟩ := List.exists_cons_of_ne_nil (Text.splitAt_ne_nil 0x0A rest)
    rw [Text.splitAt_append_cons _ noBreak, splits, lastContentEnd, ← splits]
    obtain ⟨isBest, areBlank⟩ | ⟨above, line, behind, rfl, ends, areBlank, last⟩ :=
      inductionHypothesis (if part.all CodeUnit.isBlank then best else position + part.length + 1)
        (position + part.length + 1)
    · rw [isBest]
      split
      case isTrue isBlank =>
        refine Or.inl ⟨rfl, List.forall_mem_append.mpr ⟨List.all_eq_true.mp isBlank, ?_⟩⟩
        exact List.forall_mem_cons.mpr ⟨rfl, areBlank⟩
      case isFalse notBlank =>
        obtain ⟨unit, member, isInk⟩ := inked notBlank
        refine Or.inr ⟨[], part ++ [0x0A], rest, by simp, by simp [Nat.add_assoc], areBlank,
          Or.inr ⟨part, rfl⟩, ⟨unit, List.mem_append_left _ member, isInk⟩, ?_⟩
        rwa [List.dropLast_concat]
    · refine Or.inr ⟨part ++ 0x0A :: above, line, behind, by simp, ?_, areBlank, last⟩
      rw [ends]
      simp only [List.length_append, List.length_cons]
      omega

/-! ### From the back -/

/-- Where the line begins that ends right before a position; its own line feed counts as its end. -/
def lineStart (content : Text) (position : Nat) : Nat :=
  ((content.take (position - 1)).rdropWhile (· != 0x0A)).length

/-- The search from a position back to a start: it ends behind a line that is not blank, and goes
over those that are blank to where they begin. -/
inductive Retreats (content : Text) (start : Nat) : Nat → Nat → Prop
  | start {position : Nat} (reached : position ≤ start) : Retreats content start position start
  | inked {position : Nat} (inside : start < position)
      (ink : ∃ unit ∈ content.slice (max start (lineStart content position)) position,
        unit.isBlank = false) : Retreats content start position position
  | blank {position last : Nat} (inside : start < position)
      (areBlank : ∀ unit ∈ content.slice (max start (lineStart content position)) position,
        unit.isBlank = true)
      (backward : max start (lineStart content position) < position)
      (rest : Retreats content start (max start (lineStart content position)) last) :
      Retreats content start position last

/-- The search goes no further back than to its start. -/
theorem Retreats.start_le {content : Text} {start position last : Nat}
    (search : Retreats content start position last) : start ≤ last := by
  induction search with
  | start => exact Nat.le_refl _
  | inked inside => exact Nat.le_of_lt inside
  | blank _ _ _ _ inductionHypothesis => exact inductionHypothesis

/-- The search comes to one end only. -/
theorem Retreats.unique {content : Text} {start position last other : Nat}
    (search : Retreats content start position last)
    (again : Retreats content start position other) : last = other := by
  induction search with
  | start reached =>
    cases again with
    | start => rfl
    | inked inside => exact absurd inside (Nat.not_lt_of_le reached)
    | blank inside => exact absurd inside (Nat.not_lt_of_le reached)
  | inked inside ink =>
    cases again with
    | start reached => exact absurd inside (Nat.not_lt_of_le reached)
    | inked => rfl
    | blank _ areBlank =>
      obtain ⟨unit, member, isInk⟩ := ink
      exact absurd ((areBlank unit member).symm.trans isInk) (by decide)
  | blank inside areBlank _ _ inductionHypothesis =>
    cases again with
    | start reached => exact absurd inside (Nat.not_lt_of_le reached)
    | inked _ ink =>
      obtain ⟨unit, member, isInk⟩ := ink
      exact absurd ((areBlank unit member).symm.trans isInk) (by decide)
    | blank _ _ _ rest => exact inductionHypothesis rest

theorem lineStart_le (content : Text) (position : Nat) :
    lineStart content position ≤ position - 1 :=
  calc
    lineStart content position ≤ (content.take (position - 1)).length :=
      (List.rdropWhile_prefix _ _).length_le
    _ ≤ position - 1 := List.length_take_le _ _

/-- A line begins behind each line feed before its own. -/
theorem lt_lineStart {content : Text} {position index : Nat} (breaks : content[index]? = some 0x0A)
    (before : index + 1 < position) : index < lineStart content position := by
  by_contra beyond
  have found : (content.take (position - 1))[index]? = some 0x0A := by
    rw [List.getElem?_take, if_pos (by omega), breaks]
  rw [← List.rdropWhile_append_rtakeWhile (p := (· != 0x0A)) (l := content.take (position - 1)),
    List.getElem?_append_right (Nat.le_of_not_lt beyond)] at found
  have passes := List.mem_rtakeWhile_imp (List.mem_of_getElem? found)
  exact absurd passes (by decide)

/-- What stands before a line is a line feed. -/
theorem getElem?_before_lineStart {content : Text} {position index : Nat}
    (behind : lineStart content position = index + 1) : content[index]? = some 0x0A := by
  rw [lineStart] at behind
  have notEmpty := List.ne_nil_of_length_eq_add_one behind
  have last := List.rdropWhile_last_not _ _ notEmpty
  obtain ⟨rest, whole⟩ := (List.rdropWhile_prefix (fun unit : CodeUnit => unit != 0x0A)
    (content.take (position - 1))).trans (List.take_prefix _ content)
  rw [← whole, List.getElem?_append_left (by omega), ← Nat.add_sub_cancel index 1, ← behind,
    ← List.getLast?_eq_getElem?, List.getLast?_eq_some_getLast notEmpty]
  exact congrArg some (by simpa using last)

theorem mem_slice_iff {content : Text} {start stop : Nat} {unit : CodeUnit} :
    unit ∈ content.slice start stop ↔
      ∃ index, start ≤ index ∧ index < stop ∧ content[index]? = some unit := by
  rw [Text.slice, List.mem_iff_getElem?]
  simp only [List.getElem?_take, List.getElem?_drop, Option.ite_none_right_eq_some]
  constructor
  · rintro ⟨index, inside, found⟩
    exact ⟨start + index, Nat.le_add_right _ _, by omega, found⟩
  · rintro ⟨index, after, before, found⟩
    exact ⟨index - start, by omega, by rwa [Nat.add_sub_cancel' after]⟩

/-- The search goes back to the end of the last line that is not blank. -/
theorem retreats_of_blank {content : Text} {start stop position : Nat} (after : start ≤ stop)
    (before : stop ≤ position) (areBlank : ∀ unit ∈ content.slice stop position, unit.isBlank = true)
    (ends : stop = start ∨ stop = position ∨ ∃ index, stop = index + 1 ∧ content[index]? = some 0x0A)
    (ink : stop = start ∨ ∃ index unit, start ≤ index ∧ index < stop ∧
      content[index]? = some unit ∧ unit.isBlank = false ∧
      ∀ later, index < later → later + 1 < stop → content[later]? ≠ some 0x0A) :
    Retreats content start position stop := by
  induction position using Nat.strongRecOn with
  | ind position inductionHypothesis =>
    have backward := lineStart_le content position
    by_cases reached : position ≤ start
    · obtain rfl : stop = start := by omega
      exact .start reached
    · rcases Nat.eq_or_lt_of_le before with rfl | behind
      · refine .inked (Nat.lt_of_not_le reached) ?_
        obtain rfl | ⟨index, unit, inside, within, found, isInk, noBreak⟩ := ink
        · exact absurd (Nat.le_refl _) reached
        · refine ⟨unit, mem_slice_iff.mpr ⟨index, Nat.max_le.mpr ⟨inside, ?_⟩, within, found⟩, isInk⟩
          by_contra beyond
          -- The line feed before the line would stand behind the ink, within its line.
          obtain ⟨last, isLast⟩ := Nat.exists_eq_succ_of_ne_zero
            (Nat.ne_zero_of_lt (Nat.lt_of_not_le beyond))
          have breaks := getElem?_before_lineStart isLast
          have unlike : index ≠ last := by
            rintro rfl
            cases found.symm.trans breaks
            exact absurd isInk (by decide)
          exact noBreak last (by omega) (by omega) breaks
      · have onLine : stop ≤ max start (lineStart content position) := by
          obtain rfl | same | ⟨index, rfl, breaks⟩ := ends
          · exact Nat.le_max_left _ _
          · omega
          · exact Nat.le_trans (lt_lineStart breaks behind) (Nat.le_max_right _ _)
        have shorter : max start (lineStart content position) < position := by omega
        refine .blank (Nat.lt_of_not_le reached) (fun unit member => ?_) shorter
          (inductionHypothesis _ shorter onLine (fun unit member => ?_) ?_)
        · obtain ⟨index, inside, within, found⟩ := mem_slice_iff.mp member
          exact areBlank unit (mem_slice_iff.mpr ⟨index, by omega, within, found⟩)
        · obtain ⟨index, inside, within, found⟩ := mem_slice_iff.mp member
          exact areBlank unit (mem_slice_iff.mpr ⟨index, inside, by omega, found⟩)
        · exact ends.imp_right fun other => Or.inr (other.resolve_left (Nat.ne_of_lt behind))

/-- The search passes the blanks behind a line that is not blank. -/
theorem retreats_of_split (upto above after : Text) {line behind : Text}
    (areBlank : ∀ unit ∈ behind, unit.isBlank = true)
    (ends : behind = [] ∨ ∃ before, line = before ++ [0x0A])
    (isInked : ∃ unit ∈ line, unit.isBlank = false) (noBreak : 0x0A ∉ line.dropLast) :
    Retreats (upto ++ (above ++ (line ++ (behind ++ after)))) upto.length
      (upto.length + (above.length + (line.length + behind.length)))
      (upto.length + (above.length + line.length)) := by
  refine retreats_of_blank (Nat.le_add_right _ _) (by omega) ?_ (Or.inr ?_) (Or.inr ?_)
  · have between := Text.slice_append (upto ++ (above ++ line)) behind after
    simp only [List.append_assoc, List.length_append, Nat.add_assoc] at between
    rwa [between]
  · refine ends.imp (fun none => by rw [none, List.length_nil, Nat.add_zero]) fun endsLine => ?_
    obtain ⟨before, rfl⟩ := endsLine
    exact ⟨upto.length + (above.length + before.length), by simp [Nat.add_assoc], by simp⟩
  · obtain ⟨unit, member, isInk⟩ := isInked
    obtain ⟨front, back, rfl⟩ := List.append_of_mem member
    refine ⟨upto.length + (above.length + front.length), unit, Nat.le_add_right _ _, ?_, by simp,
      isInk, fun later onward within breaks => noBreak ?_⟩
    · rw [List.length_append, List.length_cons]
      omega
    · rw [List.getElem?_append_right (by omega), List.getElem?_append_right (by omega),
        List.getElem?_append_left (by omega)] at breaks
      refine List.mem_of_getElem? (i := later - upto.length - above.length) ?_
      rw [List.getElem?_dropLast, if_pos (by omega), breaks]

/-- The content that is found from the front ends where the search from the back does. -/
theorem retreats_lastContentEnd (content : Text) {start stop : Nat}
    (inside : stop ≤ content.length) :
    Retreats content start stop
      (lastContentEnd start start (Text.splitAt 0x0A (content.slice start stop))) := by
  by_cases forward : start ≤ stop
  case neg =>
    have empty : content.slice start stop = [] := by
      rw [Text.slice, Nat.sub_eq_zero_of_le (Nat.le_of_not_le forward), List.take_zero]
    rw [empty]
    exact .start (Nat.le_of_not_le forward)
  case pos =>
    obtain ⟨isStart, areBlank⟩ |
        ⟨above, line, behind, whole, stops, areBlank, last, isInked, noBreak⟩ :=
      lastContentEnd_splitAt start start (content.slice start stop)
    · rw [isStart]
      exact retreats_of_blank (Nat.le_refl _) forward areBlank (Or.inl rfl) (Or.inl rfl)
    · have length : (content.slice start stop).length = stop - start :=
        Text.length_slice content start stop inside
      have split : content =
          content.take start ++ (above ++ (line ++ (behind ++ content.drop stop))) := by
        conv_lhs => rw [← List.take_append_drop start content,
          ← Text.slice_append_drop content start stop forward, whole]
        simp only [List.append_assoc]
      have atStart : (content.take start).length = start :=
        List.length_take_of_le (Nat.le_trans forward inside)
      rw [whole, List.length_append, List.length_append] at length
      rw [stops, List.length_append]
      have searched := retreats_of_split (content.take start) above (content.drop stop) areBlank
        last isInked noBreak
      rw [← split, atStart] at searched
      rwa [show start + (above.length + (line.length + behind.length)) = stop by omega] at searched

end SourceLint.Toml
