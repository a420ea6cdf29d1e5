/-
This file says how far the machine that splits a shell text looks ahead: to the next unit after a
backslash or an ampersand, and to the next two after the sign of a here-document. So what the
machine makes of a text depends little on what stands behind it, and a text can be read in two
parts, the first of them in view of the second.
-/
import SourceLint.Proofs.Shell.Splitter

namespace SourceLint.Shell.Splitter

/-! ### One unit -/

/-- Two texts look the same from a unit before them. -/
structure Alike (unit : CodeUnit) (left right : Text) : Prop where
  head : unit = '\\' → left.head? = right.head?
  arrow : unit = '&' → (left.head? = some ('>' : CodeUnit) ↔ right.head? = some ('>' : CodeUnit))
  sign : unit = '<' → beginsHereDocument left = beginsHereDocument right

section Unit

variable {unit : CodeUnit} {left right : Text} (alike : Alike unit left right)

include alike

theorem Alike.isRedirection_eq (previous : Option CodeUnit) :
    (unit = '&' && isRedirection previous left) = (unit = '&' && isRedirection previous right) := by
  by_cases isAmpersand : unit = '&'
  · have same : (left.head? == some ('>' : CodeUnit)) = (right.head? == some ('>' : CodeUnit)) := by
      rw [Bool.eq_iff_iff, beq_iff_eq, beq_iff_eq]
      exact alike.arrow isAmpersand
    rw [isRedirection, isRedirection, same]
  · rw [decide_eq_false isAmpersand, Bool.false_and, Bool.false_and]

theorem Alike.beginsHereDocument_eq :
    (unit = '<' && beginsHereDocument left) = (unit = '<' && beginsHereDocument right) := by
  by_cases isSign : unit = '<'
  · rw [alike.sign isSign]
  · rw [decide_eq_false isSign, Bool.false_and, Bool.false_and]

theorem Alike.isEmpty_eq :
    (unit = '\\' && !left.isEmpty) = (unit = '\\' && !right.isEmpty) := by
  by_cases isBackslash : unit = '\\'
  · have same := alike.head isBackslash
    cases left <;> cases right <;> simp_all
  · rw [decide_eq_false isBackslash, Bool.false_and, Bool.false_and]

variable (splitter : Splitter) (position : Nat)

theorem readPlain_congr :
    splitter.readPlain position unit left = splitter.readPlain position unit right := by
  unfold readPlain
  rw [alike.isRedirection_eq, alike.beginsHereDocument_eq]
  by_cases isBackslash : unit = '\\'
  · rw [if_pos isBackslash, if_pos isBackslash]
    have same := alike.head isBackslash
    cases left with
    | nil =>
      cases right with
      | nil => rfl
      | cons _ _ => cases same
    | cons next more =>
      cases right with
      | nil => cases same
      | cons other others =>
        cases same
        rfl
  · rw [if_neg isBackslash, if_neg isBackslash]

theorem readDelimiter_congr (stripsTabs : Bool) (reader : DelimiterReader) :
    splitter.readDelimiter stripsTabs reader position unit left =
      splitter.readDelimiter stripsTabs reader position unit right := by
  unfold readDelimiter
  simp only [alike.isEmpty_eq, readPlain_congr alike]

theorem readDelimiterGap_congr (stripsTabs : Bool) :
    splitter.readDelimiterGap stripsTabs position unit left =
      splitter.readDelimiterGap stripsTabs position unit right := by
  rw [readDelimiterGap, readDelimiterGap, readDelimiter_congr alike]

theorem step_congr : splitter.step position unit left = splitter.step position unit right := by
  simp only [step, read, alike.isEmpty_eq, readPlain_congr alike, readDelimiterGap_congr alike,
    readDelimiter_congr alike]

end Unit

/-! ### A text -/

/-- The machine after a text that begins at a position and has another text behind it. -/
def runTo (splitter : Splitter) (position : Nat) (behind : Text) : Text → Splitter
  | [] => splitter
  | unit :: rest =>
    (splitter.step position unit (rest ++ behind)).runTo (position + 1) behind rest

theorem runTo_nil (splitter : Splitter) (position : Nat) (text : Text) :
    splitter.runTo position [] text = splitter.run position text := by
  induction text generalizing splitter position with
  | nil => rfl
  | cons unit rest inductionHypothesis => rw [runTo, run, List.append_nil, inductionHypothesis]

theorem runTo_append (splitter : Splitter) (position : Nat) (text middle behind : Text) :
    splitter.runTo position behind (text ++ middle) =
      (splitter.runTo position (middle ++ behind) text).runTo (position + text.length) behind
        middle := by
  induction text generalizing splitter position with
  | nil => rfl
  | cons unit rest inductionHypothesis =>
    rw [List.cons_append, runTo, runTo, inductionHypothesis, List.append_assoc, List.length_cons,
      Nat.add_right_comm, Nat.add_assoc]

theorem run_append (splitter : Splitter) (position : Nat) (text behind : Text) :
    splitter.run position (text ++ behind) =
      (splitter.runTo position behind text).run (position + text.length) behind := by
  rw [← runTo_nil, runTo_append, runTo_nil, List.append_nil]

/-- What stands behind a text plays no part in the reading of it, except for its last units. -/
theorem runTo_congr (splitter : Splitter) (position : Nat) {left right text : Text}
    (last : ∀ unit, text.getLast? = some unit → Alike unit left right)
    (sign : text.getLast? = some ('<' : CodeUnit) →
      left.head? ≠ some ('<' : CodeUnit) ∧ right.head? ≠ some ('<' : CodeUnit)) :
    splitter.runTo position left text = splitter.runTo position right text := by
  induction text generalizing splitter position with
  | nil => rfl
  | cons unit rest inductionHypothesis =>
    have alike : Alike unit (rest ++ left) (rest ++ right) := by
      cases rest with
      | nil => exact last unit rfl
      | cons next more =>
        refine ⟨fun _ => rfl, fun _ => Iff.rfl, fun _ => ?_⟩
        cases more with
        | nil =>
          by_cases isSign : next = '<'
          · obtain ⟨leftSign, rightSign⟩ := sign (congrArg some isSign)
            have noThird : (left.head? != some ('<' : CodeUnit)) =
                (right.head? != some ('<' : CodeUnit)) := by
              rw [bne, bne, beq_false_of_ne leftSign, beq_false_of_ne rightSign]
            rw [List.head?_eq_getElem?, List.head?_eq_getElem?] at noThird
            exact congrArg (next == ('<' : CodeUnit) && ·) noThird
          · have notSign : (some next == some ('<' : CodeUnit)) = false :=
              beq_false_of_ne (mt Option.some.inj isSign)
            rw [List.cons_append, List.cons_append, beginsHereDocument, beginsHereDocument,
              List.head?_cons, List.head?_cons, notSign, Bool.false_and, Bool.false_and]
        | cons => rfl
    rw [runTo, runTo, step_congr alike]
    cases rest with
    | nil => rfl
    | cons => exact inductionHypothesis _ _ last sign

end SourceLint.Shell.Splitter
