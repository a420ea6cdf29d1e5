/-
This file says where the cursor of the layout scanner comes to when it has skipped blanks, comments or
the rest of a line. What it skips may be put together from parts that it skips one after another.
-/
import Mathlib.Data.List.DropRight
import SourceLint.Proofs.Linter.Placed
import SourceLint.Proofs.Text.Cut
import SourceLint.Toml.Layout

namespace SourceLint.Toml

namespace Cursor

variable {cursor : Cursor} {position : Nat} {taken rest : Text}

/-- The cursor behind a unit, if the unit is there. -/
def past (unit : CodeUnit) (cursor : Cursor) : Cursor :=
  if cursor.isAt unit then cursor.advance 1 else cursor

theorem isAt_cons (cursor : Cursor) {unit : CodeUnit} {others : Text}
    (here : cursor.rest = unit :: others) (other : CodeUnit) :
    cursor.isAt other = (unit == other) := by
  rw [isAt, here]
  rfl

theorem past_cons (unit : CodeUnit) (position : Nat) (rest : Text) :
    (Cursor.mk position (unit :: rest)).past unit = ⟨position + 1, rest⟩ := by
  rw [past, isAt_cons _ rfl, beq_self_eq_true]
  rfl

theorem past_eq_self {unit other : CodeUnit} {others : Text} (here : cursor.rest = other :: others)
    (unlike : other ≠ unit) : cursor.past unit = cursor := by
  rw [past, isAt_cons cursor here, beq_false_of_ne unlike]
  rfl

theorem advance_append (position : Nat) (taken rest : Text) :
    (Cursor.mk position (taken ++ rest)).advance taken.length =
      ⟨position + taken.length, rest⟩ := by
  rw [advance, List.drop_left]

/-! ### Skipping -/

theorem skipWhile_append {test : CodeUnit → Bool} (passes : ∀ unit ∈ taken, test unit = true) :
    (Cursor.mk position (taken ++ rest)).skipWhile test =
      (Cursor.mk (position + taken.length) rest).skipWhile test := by
  simp only [skipWhile, List.takeWhile_append_of_pos passes, advance, List.length_append,
    Nat.add_assoc, ← List.drop_drop, List.drop_left]

theorem skipWhile_eq_self {test : CodeUnit → Bool}
    (stops : ∀ unit ∈ rest.head?, test unit = false) :
    (Cursor.mk position rest).skipWhile test = ⟨position, rest⟩ := by
  have nothing : rest.takeWhile test = [] := by
    cases rest with
    | nil => rfl
    | cons unit rest => exact List.takeWhile_cons_of_neg (by simp [stops unit rfl])
  rw [skipWhile, nothing]
  rfl

/-- Skipping some units and then more of them is skipping the more. -/
theorem skipWhile_skipWhile {test other : CodeUnit → Bool}
    (implies : ∀ unit, test unit = true → other unit = true) (cursor : Cursor) :
    (cursor.skipWhile test).skipWhile other = cursor.skipWhile other := by
  obtain ⟨position, text⟩ := cursor
  have passes : ∀ unit ∈ text.takeWhile test, other unit = true := fun unit member =>
    implies unit (List.mem_takeWhile_imp member)
  have split : (Cursor.mk position (text.takeWhile test ++ text.dropWhile test)).skipWhile other =
      _ := skipWhile_append passes
  rw [List.takeWhile_append_dropWhile] at split
  rw [split]
  exact congrArg (skipWhile · other) (congrArg (Cursor.mk _) (text.drop_length_takeWhile test))

/-! ### Trivia -/

/-- Spaces, tabs and the units of line endings. -/
def isLayoutUnit (unit : CodeUnit) : Bool :=
  unit.isSpaceOrTab || unit == 0x0D || unit == 0x0A

theorem triviaLength_cons_of_isLayoutUnit {unit : CodeUnit} (isLayout : isLayoutUnit unit = true)
    (rest : Text) : triviaLength false (unit :: rest) = 1 + triviaLength false rest := by
  rw [triviaLength, if_pos]
  simpa [isLayoutUnit, CodeUnit.isSpaceOrTab, or_assoc] using isLayout

theorem triviaLength_append {taken : Text} (areLayout : ∀ unit ∈ taken, isLayoutUnit unit = true)
    (rest : Text) :
    triviaLength false (taken ++ rest) = taken.length + triviaLength false rest := by
  induction taken with
  | nil => exact (Nat.zero_add _).symm
  | cons unit taken inductionHypothesis =>
    obtain ⟨isLayout, others⟩ := List.forall_mem_cons.mp areLayout
    rw [List.cons_append, triviaLength_cons_of_isLayoutUnit isLayout, inductionHypothesis others,
      List.length_cons]
    omega

/-- A comment goes up to its line feed. -/
theorem triviaLength_comment {text : Text} (noBreak : 0x0A ∉ text) (rest : Text)
    (ends : rest = [] ∨ rest.head? = some 0x0A) :
    triviaLength true (text ++ rest) = text.length + triviaLength false rest := by
  induction text with
  | nil =>
    obtain rfl | first := ends
    · rfl
    · obtain ⟨others, rfl⟩ := List.head?_eq_some_iff.mp first
      exact (Nat.zero_add _).symm
  | cons unit text inductionHypothesis =>
    obtain ⟨unlike, others⟩ := not_or.mp (mt List.mem_cons.mpr noBreak)
    rw [List.cons_append, triviaLength, bne_iff_ne.mpr (Ne.symm unlike), inductionHypothesis others,
      List.length_cons]
    omega

theorem triviaLength_eq_zero
    (stops : ∀ unit ∈ rest.head?, isLayoutUnit unit = false ∧ unit ≠ '#') :
    triviaLength false rest = 0 := by
  cases rest with
  | nil => rfl
  | cons unit rest =>
    obtain ⟨notLayout, notComment⟩ := stops unit rfl
    rw [triviaLength, if_neg, if_neg notComment]
    simpa [isLayoutUnit, CodeUnit.isSpaceOrTab, and_assoc] using notLayout

/-- Behind the trivia there is no line feed. -/
theorem head?_drop_triviaLength (inComment : Bool) (text : Text) :
    (text.drop (triviaLength inComment text)).head? ≠ some 0x0A := by
  fun_induction triviaLength inComment text with
  | case1 => exact (Option.some_ne_none _).symm
  | case2 _ _ inductionHypothesis | case3 _ _ _ inductionHypothesis
  | case4 _ _ inductionHypothesis => rwa [Nat.add_comm, List.drop_succ_cons]
  | case5 unit rest notTrivia notComment =>
    rintro ⟨⟩
    exact notTrivia (by decide)

theorem skipTrivia_append
    (passes : triviaLength false (taken ++ rest) = taken.length + triviaLength false rest) :
    (Cursor.mk position (taken ++ rest)).skipTrivia =
      (Cursor.mk (position + taken.length) rest).skipTrivia := by
  simp only [skipTrivia, passes, advance, Nat.add_assoc, ← List.drop_drop, List.drop_left]

theorem skipTrivia_eq_self
    (stops : ∀ unit ∈ rest.head?, isLayoutUnit unit = false ∧ unit ≠ '#') :
    (Cursor.mk position rest).skipTrivia = ⟨position, rest⟩ := by
  rw [skipTrivia, triviaLength_eq_zero stops]
  rfl

end Cursor

end SourceLint.Toml
