/-
This file collects what is known of white space and of the parts that a text is cut into: what
stands after a given beginning, what is left without the units that pass a test, and texts that have
no part of a line ending.
-/
import Mathlib.Data.List.Basic
import Mathlib.Data.List.TakeWhile
import SourceLint.Text.Blank

namespace SourceLint

/-- A letter or digit is no white space. -/
theorem CodeUnit.not_isBlank_of_isAlphanumeric {unit : CodeUnit}
    (isOne : unit.isAlphanumeric = true) : unit.isBlank = false := by
  simp only [isAlphanumeric, isDigit, isBlank, Bool.or_eq_true, Bool.and_eq_true,
    decide_eq_true_eq, Bool.or_eq_false_iff, Bool.and_eq_false_iff, decide_eq_false_iff_not,
    beq_eq_false_iff_ne, UInt16.le_iff_toNat_le, ne_eq, ← UInt16.toNat_inj,
    UInt16.reduceToNat] at isOne ⊢
  omega

namespace Text

/-- A unit that passes a test is none of those that do not. -/
theorem contains_eq_false {signs : Text} {test : CodeUnit → Bool} {unit : CodeUnit}
    (passes : test unit = true) (fail : signs.all (fun other => !test other) = true) :
    signs.contains unit = false := by
  refine Bool.eq_false_iff.mpr fun isSign => ?_
  have fails := List.all_eq_true.mp fail unit (List.contains_iff_mem.mp isSign)
  rw [passes] at fails
  cases fails

/-- What is said of the units of a text is decided by going through the text, not by going through
all units that there are. -/
instance (text : Text) (test : CodeUnit → Prop) [DecidablePred test] :
    Decidable (∀ unit ∈ text, test unit) :=
  List.decidableBAll test text

theorem after?_eq_some (beginning text rest : Text)
    (reads : Text.after? beginning text = some rest) : text = beginning ++ rest := by
  rw [after?] at reads
  split at reads
  case isTrue begins =>
    cases reads
    exact (List.prefix_iff_eq_append.mp (List.isPrefixOf_iff_prefix.mp begins)).symm
  case isFalse => cases reads

theorem length_trimEnd_le (text : Text) : text.trimEnd.length ≤ text.length := by
  rw [trimEnd, List.length_reverse, ← text.length_reverse]
  exact (List.dropWhile_sublist _).length_le

/-- A text that ends with no white space is left as it is. -/
theorem trimEnd_eq_self (text : Text) (noBlank : ∀ unit ∈ text.getLast?, unit.isBlank = false) :
    text.trimEnd = text := by
  rw [trimEnd]
  cases reversed : text.reverse with
  | nil => exact (List.reverse_eq_nil_iff.mp reversed).symm
  | cons unit rest =>
    have isLast : text.getLast? = some unit := by
      rw [← List.head?_reverse, reversed]
      rfl
    have notBlank := noBlank unit isLast
    rw [List.dropWhile_cons_of_neg (by rw [notBlank]; decide), ← reversed, List.reverse_reverse]

theorem trimEnd_append_blanks (text blanks : Text)
    (areBlank : ∀ unit ∈ blanks, unit.isBlank = true) :
    trimEnd (text ++ blanks) = trimEnd text := by
  rw [trimEnd, trimEnd, List.reverse_append, List.dropWhile_append_of_pos]
  exact fun unit member => areBlank unit (List.mem_reverse.mp member)

/-- What is cut off at the end is white space, and what is left ends with none. -/
theorem exists_trimEnd (text : Text) :
    ∃ blanks : Text, text = text.trimEnd ++ blanks ∧ (∀ unit ∈ blanks, unit.isBlank = true) ∧
      ∀ unit ∈ text.trimEnd.getLast?, unit.isBlank = false := by
  refine ⟨(text.reverse.takeWhile CodeUnit.isBlank).reverse, ?_, fun unit member => ?_,
    fun unit isLast => ?_⟩
  · rw [trimEnd, ← List.reverse_append, List.takeWhile_append_dropWhile, List.reverse_reverse]
  · exact List.mem_takeWhile_imp (List.mem_reverse.mp member)
  · rw [trimEnd, List.getLast?_reverse] at isLast
    have first := List.head?_dropWhile_not CodeUnit.isBlank text.reverse
    rwa [Option.mem_def.mp isLast] at first

/-- Trimming does not go beyond a text of which something is left. -/
theorem trimEnd_append (left right : Text) (notEmpty : right.trimEnd ≠ []) :
    trimEnd (left ++ right) = left ++ trimEnd right := by
  obtain ⟨blanks, whole, areBlank, noBlank⟩ := right.exists_trimEnd
  have same : trimEnd (left ++ right) = trimEnd (left ++ right.trimEnd) := by
    rw [← trimEnd_append_blanks (left ++ right.trimEnd) blanks areBlank, List.append_assoc, ← whole]
  rw [same, trimEnd_eq_self]
  intro unit isLast
  rw [List.getLast?_append_of_ne_nil _ notEmpty] at isLast
  exact noBlank unit isLast

/-- Trimming does not go beyond a text that ends with no white space. -/
theorem trimEnd_append_of_getLast? (left right : Text)
    (noBlank : ∀ unit ∈ left.getLast?, unit.isBlank = false) :
    trimEnd (left ++ right) = left ++ trimEnd right := by
  by_cases empty : right.trimEnd = []
  · obtain ⟨blanks, whole, areBlank, _⟩ := right.exists_trimEnd
    rw [empty, List.nil_append] at whole
    rw [empty, List.append_nil, whole, trimEnd_append_blanks _ _ areBlank,
      trimEnd_eq_self _ noBlank]
  · exact trimEnd_append left right empty

/-- A text without the units it begins with that pass a test. -/
theorem drop_length_takeWhile (text : Text) (test : CodeUnit → Bool) :
    text.drop (text.takeWhile test).length = text.dropWhile test :=
  (congrArg (List.drop _) (List.takeWhile_append_dropWhile (p := test)).symm).trans List.drop_left

/-- What is left without the units that pass a test begins with none of them. -/
theorem head?_dropWhile_stops (test : CodeUnit → Bool) (text : Text) :
    ∀ unit ∈ (text.dropWhile test).head?, ¬test unit = true := by
  intro unit found
  have stops := List.head?_dropWhile_not test text
  rw [Option.mem_def.mp found] at stops
  simpa using stops

/-- Units that pass a test are what a text begins with, if no further one follows them. -/
theorem takeWhile_append_of_stops {test : CodeUnit → Bool} {first other : Text}
    (passes : ∀ unit ∈ first, test unit = true) (stops : ∀ unit ∈ other.head?, ¬test unit = true) :
    (first ++ other).takeWhile test = first := by
  rw [List.takeWhile_append_of_pos passes]
  cases other with
  | nil => rw [List.takeWhile_nil, List.append_nil]
  | cons unit other => rw [List.takeWhile_cons_of_neg (stops unit rfl), List.append_nil]

theorem splitAt_ne_nil (separator : CodeUnit) (text : Text) : splitAt separator text ≠ [] := by
  fun_cases splitAt separator text <;> simp

/-- The parts between the separators give the text again. -/
theorem join_splitAt (separator : CodeUnit) (text : Text) :
    join [separator] (splitAt separator text) = text := by
  fun_induction splitAt separator text with
  | case1 => rfl
  | case2 rest inductionHypothesis =>
    obtain ⟨part, parts, split⟩ := List.exists_cons_of_ne_nil (splitAt_ne_nil separator rest)
    rw [split] at inductionHypothesis ⊢
    exact congrArg (separator :: ·) inductionHypothesis
  | case3 unit rest notSeparator part parts split inductionHypothesis =>
    rw [split] at inductionHypothesis
    cases parts with
    | nil => exact congrArg (unit :: ·) inductionHypothesis
    | cons next others => exact congrArg (unit :: ·) inductionHypothesis
  | case4 unit rest notSeparator split => exact absurd split (splitAt_ne_nil separator rest)

/-- A text up to a separator is the first part. -/
theorem splitAt_append_cons {separator : CodeUnit} {text : Text} (rest : Text)
    (isNone : separator ∉ text) :
    splitAt separator (text ++ separator :: rest) = text :: splitAt separator rest := by
  induction text with
  | nil => simp [splitAt]
  | cons unit text inductionHypothesis =>
    obtain ⟨differs, isNone⟩ := not_or.mp (List.mem_cons.not.mp isNone)
    rw [List.cons_append, splitAt, if_neg (Ne.symm differs), inductionHypothesis isNone]

theorem splitAt_of_not_mem {separator : CodeUnit} {text : Text} (isNone : separator ∉ text) :
    splitAt separator text = [text] := by
  induction text with
  | nil => rfl
  | cons unit text inductionHypothesis =>
    obtain ⟨differs, isNone⟩ := not_or.mp (List.mem_cons.not.mp isNone)
    rw [splitAt, if_neg (Ne.symm differs), inductionHypothesis isNone]

theorem join_cons {separator first : Text} {rest : List Text} (notEmpty : rest ≠ []) :
    join separator (first :: rest) = first ++ (separator ++ join separator rest) := by
  obtain ⟨next, others, rfl⟩ := List.exists_cons_of_ne_nil notEmpty
  rw [join, List.append_assoc]
  exact fun empty => absurd empty (List.cons_ne_nil next others)

/-- Texts with a separator between them that none of them holds are found again between the
separators. -/
theorem splitAt_join {separator : CodeUnit} :
    ∀ {texts : List Text}, texts ≠ [] → (∀ text ∈ texts, separator ∉ text) →
      splitAt separator (join [separator] texts) = texts := by
  intro texts notEmpty areNone
  fun_induction join [separator] texts with
  | case1 => exact absurd rfl notEmpty
  | case2 text => exact splitAt_of_not_mem (areNone text List.mem_cons_self)
  | case3 text rest notLast inductionHypothesis =>
    obtain ⟨isNone, areNone⟩ := List.forall_mem_cons.mp areNone
    rw [List.append_assoc, List.singleton_append, splitAt_append_cons _ isNone,
      inductionHypothesis (fun empty => notLast empty) areNone]

/-- Induction over the parts between separators. -/
@[elab_as_elim]
theorem inductionOnParts {motive : Text → Prop} (separator : CodeUnit) (text : Text)
    (last : ∀ part, separator ∉ part → motive part)
    (more : ∀ part rest, separator ∉ part → motive rest → motive (part ++ separator :: rest)) :
    motive text := by
  by_cases member : separator ∈ text
  · obtain ⟨part, rest, whole, isNone⟩ := List.eq_append_cons_of_mem member
    have shorter : rest.length < text.length := by
      rw [whole, List.length_append, List.length_cons]
      omega
    rw [whole]
    exact more part rest isNone (inductionOnParts separator rest last more)
  · exact last text member
termination_by text.length

theorem getElem?_slice_of_eq_some (text : Text) (start stop index : Nat) (unit : CodeUnit)
    (found : (text.slice start stop)[index]? = some unit) : text[start + index]? = some unit := by
  rw [slice, List.getElem?_take] at found
  split at found
  · rwa [List.getElem?_drop] at found
  · cases found

/-- A text has no unit that is part of a line ending. -/
def OneLine (text : Text) : Prop := ∀ unit ∈ text, unit ≠ 0x0A ∧ unit ≠ 0x0D

instance (text : Text) : Decidable text.OneLine := List.decidableBAll _ text

/-- A text goes over a line terminator, not counting the white space at its end. -/
def BreaksWithin (text : Text) : Prop := text.trimEnd.any CodeUnit.isLineTerminator = true

instance (text : Text) : Decidable text.BreaksWithin := inferInstanceAs (Decidable (_ = _))

theorem OneLine.append {left right : Text} (isLeft : left.OneLine) (isRight : right.OneLine) :
    OneLine (left ++ right) :=
  List.forall_mem_append.mpr ⟨isLeft, isRight⟩

theorem OneLine.of_cons {unit : CodeUnit} {rest : Text} (isOneLine : OneLine (unit :: rest)) :
    rest.OneLine :=
  (List.forall_mem_cons.mp isOneLine).2

theorem OneLine.of_append {left right : Text} (isOneLine : OneLine (left ++ right)) :
    left.OneLine ∧ right.OneLine :=
  List.forall_mem_append.mp isOneLine

end Text

end SourceLint
