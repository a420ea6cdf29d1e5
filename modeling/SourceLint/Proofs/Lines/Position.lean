/-
This file says what the look-up of a position answers. Each integer is in exactly one of three cases:
one line holds it, from its start up to and including its stop; or it stands between the carriage
return and the line feed of one line ending; or it is no position of the text. The answer tells the
cases apart, the two failures by what they say. Of the lines that the halving leaves out none holds
the position, and a place that no line holds is left over only within a line ending, because lines
reach up to their endings and no ending but the pair has a place inside.
-/
import Mathlib.Tactic.ByContra
import SourceLint.Proofs.Lines.Lookup
import SourceLint.Proofs.Report.Failure

namespace SourceLint

/-- The line with a number holds a position, its stop included. -/
def Lines.Holds (lines : Lines) (number : Nat) (position : Int) : Prop :=
  ∃ span, lines.spans[number]? = some span ∧ span.start ≤ position ∧ position ≤ span.stop

/-- An integer is a place between the two units of a line ending. -/
def Text.SplitsBreakAt (text : Text) (position : Int) : Prop :=
  ∃ place : Nat, position = place ∧ text.SplitsBreak place

/-- An integer is before the start of a text or past its end. -/
def Text.IsOutside (text : Text) (position : Int) : Prop :=
  position < 0 ∨ position > text.length

/-- A failure that refuses a position, with what it says of it. -/
def LintError.Refuses (error : LintError) (position : Int) (complaint : Text) : Prop :=
  error.kind = "PositionOutOfRangeError" ∧
    error.message = "Position " ++ Text.ofInt position ++ complaint

/-- The look-up of a position in the lines of a text: what it answers in each of three cases, of
which there is always exactly one. -/
structure Lines.LooksUp (lines : Lines) (content : Text) (position : Int) : Prop where
  ok_iff : ∀ number, lines.lineAt position = .ok number ↔ lines.Holds number position
  holds_unique : ∀ first second,
    lines.Holds first position → lines.Holds second position → first = second
  separator_iff :
    (∃ error, lines.lineAt position = .error error ∧
      error.Refuses position " is inside a line separator") ↔ content.SplitsBreakAt position
  outside_iff :
    (∃ error, lines.lineAt position = .error error ∧
      error.Refuses position " is not in the string") ↔ content.IsOutside position
  exhaustive :
    (∃ number, lines.Holds number position) ∨ content.SplitsBreakAt position ∨
      content.IsOutside position
  held_not_separator :
    (∃ number, lines.Holds number position) → ¬content.SplitsBreakAt position
  held_not_outside : (∃ number, lines.Holds number position) → ¬content.IsOutside position
  separator_not_outside : content.SplitsBreakAt position → ¬content.IsOutside position

namespace Lines

/-! ### The three answers -/

/-- The look-up answers with a line, or it fails in one of two ways. -/
theorem lineAt_cases (lines : Lines) (position : Int) :
    (∃ number, lines.lineAt position = .ok number) ∨
      lines.lineAt position = .error (.positionInSeparator position) ∨
      lines.lineAt position = .error (.positionOutside position) := by
  rw [lineAt]
  split
  · exact Or.inr (Or.inr rfl)
  · split
    case h_1 number _ => exact Or.inl ⟨number, rfl⟩
    case h_2 => exact Or.inr (Or.inl rfl)

variable (content : Text) (position : Int)

theorem lineAt_eq_outside_iff :
    (ofText content).lineAt position = .error (.positionOutside position) ↔
      content.IsOutside position := by
  rw [Text.IsOutside]
  constructor
  · intro fails
    by_contra inside
    rw [lineAt, content_ofText, if_neg inside] at fails
    split at fails <;> cases fails
  · intro outside
    rw [lineAt, content_ofText, if_pos outside]

/-- An integer that is not outside is a place of the text. -/
theorem exists_place (inside : ¬content.IsOutside position) :
    ∃ place : Nat, position = place ∧ place ≤ content.length := by
  obtain ⟨notBefore, notPast⟩ := not_or.mp inside
  obtain ⟨place, rfl⟩ := Int.eq_ofNat_of_zero_le (Int.not_lt.mp notBefore)
  exact ⟨place, rfl, Int.ofNat_le.mp (Int.not_lt.mp notPast)⟩

theorem getElem?_spans (lines : Lines) (number : Nat) (line : Line)
    (found : lines.all[number]? = some line) : lines.spans[number]? = some line.span := by
  rw [spans, List.getElem?_map, found]
  rfl

theorem exists_line_of_holds (lines : Lines) (number : Nat) (holds : lines.Holds number position) :
    ∃ line, lines.all[number]? = some line ∧ line.start ≤ position ∧ position ≤ line.stop := by
  obtain ⟨span, found, after, before⟩ := holds
  rw [spans, List.getElem?_map, Option.map_eq_some_iff] at found
  obtain ⟨line, isLine, rfl⟩ := found
  exact ⟨line, isLine, after, before⟩

/-- A line that holds an integer makes it a place of the text. -/
theorem not_isOutside_of_holds (number : Nat) (holds : (ofText content).Holds number position) :
    ¬content.IsOutside position := by
  obtain ⟨line, found, after, before⟩ := exists_line_of_holds position _ _ holds
  have inside := stop_le_length content line (List.mem_of_getElem? found)
  rw [Text.IsOutside]
  omega

theorem lineAt_eq_ok_iff (number : Nat) :
    (ofText content).lineAt position = .ok number ↔ (ofText content).Holds number position := by
  constructor
  · intro found
    have inside : ¬content.IsOutside position := fun outside => by
      rw [(lineAt_eq_outside_iff content position).mpr outside] at found
      cases found
    obtain ⟨place, rfl, _⟩ := exists_place content position inside
    obtain ⟨line, isLine, after, before⟩ := exists_line_of_lineAt _ _ _ found
    exact ⟨line.span, getElem?_spans _ _ _ isLine, Int.ofNat_le.mpr after, Int.ofNat_le.mpr before⟩
  · intro holds
    obtain ⟨place, rfl, _⟩ :=
      exists_place content position (not_isOutside_of_holds content position number holds)
    obtain ⟨line, isLine, after, before⟩ := exists_line_of_holds place _ _ holds
    exact lineAt_eq_ok content number line isLine place (Int.ofNat_le.mp after)
      (Int.ofNat_le.mp before)

theorem lineAt_eq_separator_iff :
    (ofText content).lineAt position = .error (.positionInSeparator position) ↔
      content.SplitsBreakAt position := by
  constructor
  · intro fails
    have inside : ¬content.IsOutside position := fun outside => by
      rw [(lineAt_eq_outside_iff content position).mpr outside] at fails
      cases fails
    obtain ⟨place, rfl, bound⟩ := exists_place content position inside
    refine ⟨place, rfl, ?_⟩
    by_contra whole
    obtain ⟨number, found⟩ := exists_lineAt_eq_ok content place bound whole
    rw [found] at fails
    cases fails
  · rintro ⟨place, rfl, splits⟩
    have bound := (List.getElem?_eq_some_iff.mp splits.2.2).1
    rcases lineAt_cases (ofText content) place with ⟨number, found⟩ | separator | fails
    · obtain ⟨line, isLine, after, before⟩ := exists_line_of_lineAt _ _ _ found
      exact absurd splits
        (not_splitsBreak_of_mem content line (List.mem_of_getElem? isLine) place after before)
    · exact separator
    · have outside := (lineAt_eq_outside_iff content place).mp fails
      rw [Text.IsOutside] at outside
      omega

/-! ### What the failures say -/

theorem refuses_positionInSeparator_iff (complaint : Text) :
    (LintError.positionInSeparator position).Refuses position complaint ↔
      complaint = " is inside a line separator" :=
  ⟨fun refuses => (List.append_cancel_left refuses.2).symm, fun same => ⟨rfl, same ▸ rfl⟩⟩

theorem refuses_positionOutside_iff (complaint : Text) :
    (LintError.positionOutside position).Refuses position complaint ↔
      complaint = " is not in the string" :=
  ⟨fun refuses => (List.append_cancel_left refuses.2).symm, fun same => ⟨rfl, same ▸ rfl⟩⟩

theorem separator_iff (lines : Lines) :
    (∃ error, lines.lineAt position = .error error ∧
        error.Refuses position " is inside a line separator") ↔
      lines.lineAt position = .error (.positionInSeparator position) := by
  constructor
  · rintro ⟨error, fails, refuses⟩
    rcases lineAt_cases lines position with ⟨number, found⟩ | separator | outside
    · rw [found] at fails
      cases fails
    · exact separator
    · cases outside.symm.trans fails
      exact absurd ((refuses_positionOutside_iff position _).mp refuses) (by decide)
  · exact fun fails => ⟨_, fails, (refuses_positionInSeparator_iff position _).mpr rfl⟩

theorem outside_iff (lines : Lines) :
    (∃ error, lines.lineAt position = .error error ∧
        error.Refuses position " is not in the string") ↔
      lines.lineAt position = .error (.positionOutside position) := by
  constructor
  · rintro ⟨error, fails, refuses⟩
    rcases lineAt_cases lines position with ⟨number, found⟩ | separator | outside
    · rw [found] at fails
      cases fails
    · cases separator.symm.trans fails
      exact absurd ((refuses_positionInSeparator_iff position _).mp refuses) (by decide)
    · exact outside
  · exact fun fails => ⟨_, fails, (refuses_positionOutside_iff position _).mpr rfl⟩

/-- The look-up of any integer in the lines of a text. -/
theorem looksUp_ofText : (ofText content).LooksUp content position where
  ok_iff := lineAt_eq_ok_iff content position
  holds_unique first second isFirst isSecond := by
    rw [← lineAt_eq_ok_iff] at isFirst isSecond
    exact Except.ok.inj (isFirst.symm.trans isSecond)
  separator_iff := (separator_iff position _).trans (lineAt_eq_separator_iff content position)
  outside_iff := (outside_iff position _).trans (lineAt_eq_outside_iff content position)
  exhaustive := by
    rw [← lineAt_eq_separator_iff, ← lineAt_eq_outside_iff]
    simp only [← lineAt_eq_ok_iff]
    exact lineAt_cases _ _
  held_not_separator := by
    rintro ⟨number, holds⟩ splits
    rw [← lineAt_eq_ok_iff] at holds
    cases holds.symm.trans ((lineAt_eq_separator_iff content position).mpr splits)
  held_not_outside := fun ⟨number, holds⟩ => not_isOutside_of_holds content position number holds
  separator_not_outside := by
    intro splits outside
    cases ((lineAt_eq_separator_iff content position).mpr splits).symm.trans
      ((lineAt_eq_outside_iff content position).mpr outside)

end Lines

end SourceLint
