/-
This file says which positions of a text are in a line: all of them but those between the carriage
return and the line feed of one line ending. Looking up any other position of the text succeeds.
-/
import SourceLint.Proofs.Lines.Placement

namespace SourceLint

/-- A position lies between the two units of a line ending. -/
def Text.SplitsBreak (text : Text) (position : Nat) : Prop :=
  0 < position ∧ text[position - 1]? = some 0x0D ∧ text[position]? = some 0x0A

instance (text : Text) (position : Nat) : Decidable (text.SplitsBreak position) :=
  inferInstanceAs (Decidable (_ ∧ _))

namespace Text

theorem not_splitsBreak_zero (text : Text) : ¬text.SplitsBreak 0 := fun splits =>
  absurd splits.1 (Nat.lt_irrefl 0)

/-- A position does not split a line ending if the unit at it is no line feed. -/
theorem not_splitsBreak_of_ne (text : Text) (position : Nat)
    (unlike : text[position]? ≠ some 0x0A) : ¬text.SplitsBreak position := fun splits =>
  unlike splits.2.2

/-- A position does not split a line ending if the unit before it is no carriage return. -/
theorem not_splitsBreak_of_before (text : Text) (position : Nat)
    (unlike : text[position - 1]? ≠ some 0x0D) : ¬text.SplitsBreak position := fun splits =>
  unlike splits.2.1

theorem not_splitsBreak_length (text : Text) : ¬text.SplitsBreak text.length :=
  text.not_splitsBreak_of_ne _ (by simp)

/-- A position that splits a line ending does so behind any unit. -/
theorem SplitsBreak.cons {text : Text} {position : Nat} (splits : text.SplitsBreak position)
    (unit : CodeUnit) : SplitsBreak (unit :: text) (position + 1) := by
  obtain ⟨positive, before, here⟩ := splits
  obtain ⟨previous, rfl⟩ := Nat.exists_eq_succ_of_ne_zero (Nat.ne_of_gt positive)
  exact ⟨Nat.succ_pos _, before, here⟩

end Text

/-- A text has at least one line. -/
theorem physicalLines_ne_nil (text : Text) : physicalLines text ≠ [] := by
  fun_cases physicalLines text <;> simp

/-- The lines after the first are where they are without the first unit. -/
theorem placeLines_cons_unit (start : Nat) (unit : CodeUnit) (text : Text)
    (ending : Option Newline) (more : List (Text × Option Newline)) :
    placeLines start ((unit :: text, ending) :: more) =
      ⟨start, unit :: text, ending⟩ ::
        placeLines (start + 1 + (Line.fullText ⟨start + 1, text, ending⟩).length) more := by
  have same : start + (Line.fullText ⟨start, unit :: text, ending⟩).length =
      start + 1 + (Line.fullText ⟨start + 1, text, ending⟩).length := by
    simp only [Line.fullText, List.cons_append, List.length_cons]
    omega
  rw [placeLines, same]

/-- Every position that splits no line ending is in one of the lines, its stop included. -/
theorem exists_mem_placeLines_of_not_splitsBreak (start : Nat) (text : Text) (offset : Nat)
    (inside : offset ≤ text.length) (whole : ¬text.SplitsBreak offset) :
    ∃ line ∈ placeLines start (physicalLines text),
      line.start ≤ start + offset ∧ start + offset ≤ line.stop := by
  fun_induction physicalLines text generalizing start offset with
  | case1 =>
    exact ⟨⟨start, [], none⟩, List.mem_cons_self, Nat.le_add_right _ _,
      Nat.add_le_add_left inside _⟩
  | case2 rest inductionHypothesis =>
    cases offset with
    | zero => exact ⟨⟨start, [], some .lf⟩, List.mem_cons_self, Nat.le_refl _, Nat.le_refl _⟩
    | succ offset =>
      obtain ⟨line, member, holds⟩ := inductionHypothesis (start + 1) offset
        (Nat.le_of_succ_le_succ inside) fun splits => whole (splits.cons _)
      exact ⟨line, List.mem_cons_of_mem _ member, by omega⟩
  | case3 =>
    cases offset with
    | zero => exact ⟨⟨start, [], some .cr⟩, List.mem_cons_self, Nat.le_refl _, Nat.le_refl _⟩
    | succ offset =>
      have last : offset = 0 := Nat.le_zero.mp (Nat.le_of_succ_le_succ inside)
      subst last
      exact ⟨⟨start + 1, [], none⟩, List.mem_cons_of_mem _ List.mem_cons_self, Nat.le_refl _,
        Nat.le_refl _⟩
  | case4 rest _ inductionHypothesis =>
    rcases offset with _ | _ | offset
    · exact ⟨⟨start, [], some .crlf⟩, List.mem_cons_self, Nat.le_refl _, Nat.le_refl _⟩
    · exact absurd ⟨Nat.one_pos, rfl, rfl⟩ whole
    · obtain ⟨line, member, holds⟩ := inductionHypothesis (start + 2) offset
        (Nat.le_of_succ_le_succ (Nat.le_of_succ_le_succ inside))
        fun splits => whole ((splits.cons _).cons _)
      exact ⟨line, List.mem_cons_of_mem _ member, by omega⟩
  | case5 next rest _ _ inductionHypothesis =>
    cases offset with
    | zero => exact ⟨⟨start, [], some .cr⟩, List.mem_cons_self, Nat.le_refl _, Nat.le_refl _⟩
    | succ offset =>
      obtain ⟨line, member, holds⟩ := inductionHypothesis (start + 1) offset
        (Nat.le_of_succ_le_succ inside) fun splits => whole (splits.cons _)
      exact ⟨line, List.mem_cons_of_mem _ member, by omega⟩
  -- The unit goes to the front of the first line of the rest.
  | case6 unit rest _ _ text ending more parts inductionHypothesis =>
    rw [parts] at inductionHypothesis
    have first : (⟨start, unit :: text, ending⟩ : Line) ∈
        placeLines start ((unit :: text, ending) :: more) := List.mem_cons_self
    cases offset with
    | zero => exact ⟨_, first, Nat.le_refl _, Nat.le_add_right _ _⟩
    | succ offset =>
      obtain ⟨line, member, after, before⟩ := inductionHypothesis (start + 1) offset
        (Nat.le_of_succ_le_succ inside) fun splits => whole (splits.cons _)
      rcases List.mem_cons.mp member with rfl | later
      · refine ⟨_, first, by dsimp only; omega, ?_⟩
        show start + (offset + 1) ≤ start + (text.length + 1)
        have bound : start + 1 + offset ≤ start + 1 + text.length := before
        omega
      · refine ⟨line, ?_, by omega, by omega⟩
        rw [placeLines_cons_unit]
        exact List.mem_cons_of_mem _ later
  | case7 unit rest _ _ parts => exact absurd parts (physicalLines_ne_nil rest)

/-- A position that splits a line ending behind a unit does so in the text after that unit, or the
unit is the carriage return. -/
theorem Text.SplitsBreak.of_cons {unit : CodeUnit} {text : Text} {position : Nat}
    (splits : SplitsBreak (unit :: text) (position + 1)) :
    text.SplitsBreak position ∨ position = 0 ∧ unit = 0x0D ∧ text[0]? = some 0x0A := by
  obtain ⟨_, before, here⟩ := splits
  cases position with
  | zero => exact Or.inr ⟨rfl, Option.some.inj before, here⟩
  | succ position => exact Or.inl ⟨Nat.succ_pos _, before, here⟩

/-- No position of a line, its stop included, splits a line ending. -/
theorem not_splitsBreak_of_mem_placeLines (start : Nat) (text : Text) (line : Line)
    (member : line ∈ placeLines start (physicalLines text)) (offset : Nat)
    (after : line.start ≤ start + offset) (before : start + offset ≤ line.stop) :
    ¬text.SplitsBreak offset := by
  fun_induction physicalLines text generalizing start line offset with
  | case1 => exact fun splits => absurd splits.2.2 (by simp)
  | case2 rest inductionHypothesis =>
    intro splits
    rcases List.mem_cons.mp member with rfl | later
    · have first : offset = 0 := Nat.le_zero.mp (Nat.le_of_add_le_add_left before)
      exact Text.not_splitsBreak_zero _ (first ▸ splits)
    · have beyond := start_le_of_mem_placeLines (start + 1) _ line later
      have bound : 1 ≤ offset := by omega
      obtain ⟨previous, rfl⟩ := Nat.exists_eq_add_of_le' bound
      rcases splits.of_cons with others | ⟨_, isReturn, _⟩
      · exact inductionHypothesis (start + 1) line later previous (by omega) (by omega) others
      · exact absurd isReturn (by decide)
  | case3 =>
    rintro ⟨positive, _, here⟩
    obtain ⟨previous, rfl⟩ := Nat.exists_eq_succ_of_ne_zero (Nat.ne_of_gt positive)
    exact absurd here (by simp)
  | case4 rest _ inductionHypothesis =>
    intro splits
    rcases List.mem_cons.mp member with rfl | later
    · have first : offset = 0 := Nat.le_zero.mp (Nat.le_of_add_le_add_left before)
      exact Text.not_splitsBreak_zero _ (first ▸ splits)
    · have beyond := start_le_of_mem_placeLines (start + 2) _ line later
      have bound : 2 ≤ offset := by omega
      obtain ⟨previous, rfl⟩ := Nat.exists_eq_add_of_le' bound
      rcases splits.of_cons with others | ⟨same, _⟩
      · rcases others.of_cons with others | ⟨_, isReturn, _⟩
        · exact inductionHypothesis (start + 2) line later previous (by omega) (by omega) others
        · exact absurd isReturn (by decide)
      · exact absurd same (by omega)
  | case5 next rest unlike _ inductionHypothesis =>
    intro splits
    rcases List.mem_cons.mp member with rfl | later
    · have first : offset = 0 := Nat.le_zero.mp (Nat.le_of_add_le_add_left before)
      exact Text.not_splitsBreak_zero _ (first ▸ splits)
    · have beyond := start_le_of_mem_placeLines (start + 1) _ line later
      have bound : 1 ≤ offset := by omega
      obtain ⟨previous, rfl⟩ := Nat.exists_eq_add_of_le' bound
      rcases splits.of_cons with others | ⟨_, _, isFeed⟩
      · exact inductionHypothesis (start + 1) line later previous (by omega) (by omega) others
      · exact unlike (Option.some.inj isFeed)
  | case6 unit rest _ notReturn text ending more parts inductionHypothesis =>
    intro splits
    rw [parts] at inductionHypothesis
    cases offset with
    | zero => exact Text.not_splitsBreak_zero _ splits
    | succ previous =>
      have others := splits.of_cons.resolve_right fun first => notReturn first.2.1
      rw [placeLines_cons_unit] at member
      rcases List.mem_cons.mp member with rfl | later
      · refine inductionHypothesis (start + 1) _ List.mem_cons_self previous ?_ ?_ others
        · exact Nat.le_add_right _ _
        · have bound : start + (previous + 1) ≤ start + (text.length + 1) := before
          show start + 1 + previous ≤ start + 1 + text.length
          omega
      · exact inductionHypothesis (start + 1) line (List.mem_cons_of_mem _ later) previous
          (by omega) (by omega) others
  | case7 unit rest _ _ parts => exact absurd parts (physicalLines_ne_nil rest)

theorem Lines.not_splitsBreak_of_mem (content : Text) (line : Line)
    (member : line ∈ (ofText content).all) (position : Nat) (after : line.start ≤ position)
    (before : position ≤ line.stop) : ¬content.SplitsBreak position :=
  not_splitsBreak_of_mem_placeLines 0 content line member position (by omega) (by omega)

/-- The look-up of a position that splits no line ending succeeds. -/
theorem Lines.exists_lineAt_eq_ok (content : Text) (position : Nat)
    (inside : position ≤ content.length) (whole : ¬content.SplitsBreak position) :
    ∃ number, (Lines.ofText content).lineAt position = .ok number := by
  obtain ⟨line, member, after, before⟩ :=
    exists_mem_placeLines_of_not_splitsBreak 0 content position inside whole
  rw [Nat.zero_add] at after before
  obtain ⟨number, found⟩ := List.mem_iff_getElem?.mp member
  exact ⟨number, Lines.lineAt_eq_ok content number line found position after before⟩

/-- What the search finds holds the position. -/
theorem Lines.exists_line_of_holding? (lines : Array Line) (position : Int) (low high number : Nat)
    (found : holding? lines position low high = some number) :
    ∃ line, lines[number]? = some line ∧ line.start ≤ position ∧ position ≤ line.stop := by
  fun_induction holding? lines position low high with
  | case1 low high less middle line here below inductionHypothesis => exact inductionHypothesis found
  | case2 low high less middle line here notBelow above inductionHypothesis =>
    exact inductionHypothesis found
  | case3 low high less middle line here notBelow notAbove =>
    rw [Option.some.inj found] at here
    exact ⟨line, here, Int.not_lt.mp notBelow, Int.not_lt.mp notAbove⟩
  | case4 low high less middle none inductionHypothesis => exact inductionHypothesis found
  | case5 => cases found

/-- A position that is looked up with success is in the line that is found, its stop included. -/
theorem Lines.exists_line_of_lineAt (lines : Lines) (position number : Nat)
    (found : lines.lineAt position = .ok number) :
    ∃ line, lines.all[number]? = some line ∧ line.start ≤ position ∧ position ≤ line.stop := by
  rw [lineAt] at found
  split at found
  · cases found
  · split at found
    case h_1 index searched =>
      cases found
      obtain ⟨line, here, after, before⟩ := exists_line_of_holding? _ _ _ _ _ searched
      rw [List.getElem?_toArray] at here
      exact ⟨line, here, Int.ofNat_le.mp after, Int.ofNat_le.mp before⟩
    case h_2 => cases found

end SourceLint
