/-
This file says what the checks of a plan give together, and that the order in which they are
registered has no influence on the fixed text. The fix sorts all replacements by their spans, so an
order could show only where two of them have one span. Two changes of one span overlap, and the fix
fails in every order; two insertions at one place are what has to be excluded.
-/
import SourceLint.Proofs.Linter.Placed
import SourceLint.Run

namespace SourceLint

/-! ### Several checks -/

namespace Check

variable {State : Type}

/-- A check gives certain warnings on a source, whatever it has kept from other files. -/
def Gives (check : Check State) (source : Source) (warnings : List Warning) : Prop :=
  ∀ state store, (check state store source).1.result = .ok warnings

/-- The warnings that a check gives, when it gives any, depend on the text alone. -/
def Finds (check : Check State) (find : Text → List Warning) : Prop :=
  ∀ state store source warnings,
    (check state store source).1.result = .ok warnings → warnings = find source.content

/-- What checks come to is what the first of them comes to with the others after it. -/
theorem runAll_cons_result (check : Check State) (rest : List (Check State)) (state : State)
    (store : FileStore) (source : Source) :
    (runAll (check :: rest) state store source).1.result =
      match (check state store source).1.result with
      | .error error => .error error
      | .ok warnings =>
        (runAll rest (check state store source).2 store source).1.result.map fun more =>
          warnings ++ more := by
  rw [runAll]
  obtain ⟨⟨events, result⟩, next⟩ := check state store source
  cases result <;> rfl

theorem gives_runAll (checks : List (Check State)) (source : Source)
    (found : Check State → List Warning)
    (gives : ∀ check ∈ checks, check.Gives source (found check)) :
    Gives (runAll checks) source (checks.flatMap found) := by
  intro state store
  induction checks generalizing state with
  | nil => rfl
  | cons check rest inductionHypothesis =>
    obtain ⟨first, others⟩ := List.forall_mem_cons.mp gives
    rw [runAll_cons_result, first state store, inductionHypothesis others]
    rfl

theorem finds_runAll (checks : List (Check State)) (found : Check State → Text → List Warning)
    (finds : ∀ check ∈ checks, check.Finds (found check)) :
    Finds (runAll checks) fun content => checks.flatMap fun check => found check content := by
  intro state store source warnings result
  induction checks generalizing state warnings with
  | nil =>
    cases result
    rfl
  | cons check rest inductionHypothesis =>
    obtain ⟨first, others⟩ := List.forall_mem_cons.mp finds
    rw [runAll_cons_result] at result
    cases own : (check state store source).1.result with
    | error error =>
      rw [own] at result
      cases result
    | ok ownWarnings =>
      rw [own] at result
      cases more : (runAll rest (check state store source).2 store source).1.result with
      | error error =>
        rw [more] at result
        cases result
      | ok moreWarnings =>
        rw [more] at result
        cases result
        show ownWarnings ++ moreWarnings = (check :: rest).flatMap _
        rw [List.flatMap_cons, first state store source ownWarnings own,
          inductionHypothesis others _ _ more]

end Check

/-! ### Replacements in another order -/

/-- The places at which replacements insert, each as often as something is inserted there. -/
def Replacement.insertedAt (replacements : List Replacement) : List Nat :=
  (replacements.filter fun replacement => replacement.span.isPoint).map
    fun replacement => replacement.span.start

/-- Two insertions into a text into which nothing is inserted twice at one place. -/
theorem Replacement.start_ne_of_nodup (replacements : List Replacement)
    (distinct : (insertedAt replacements).Nodup) (first second : Replacement)
    (among : [first, second].Subperm replacements) (firstPoint : first.span.isPoint)
    (secondPoint : second.span.isPoint) : first.span.start ≠ second.span.start := by
  obtain ⟨sorted, perm, sublist⟩ := among.filter fun replacement => replacement.span.isPoint
  have nodup := (perm.map fun replacement => replacement.span.start).nodup_iff.mp
    (distinct.sublist (sublist.map fun replacement => replacement.span.start))
  simpa [firstPoint, secondPoint] using nodup

namespace Linter

variable (left right : Linter) (perm : left.proposed.Perm right.proposed)
  (proper : ∀ replacement ∈ left.proposed, replacement.Proper)

include perm proper

/-- Replacements that clash in one order clash in the other. -/
theorem exists_clash_of_perm (first second : Replacement)
    (clash : firstClash left.replacements = some (first, second)) :
    ∃ third fourth, firstClash right.replacements = some (third, fourth) := by
  obtain ⟨among, overlap⟩ := left.overlaps_of_fix_eq_error proper first second
    ((left.fix_eq_error_iff _ _).mpr clash)
  have rightProper : ∀ replacement ∈ right.proposed, replacement.Proper :=
    fun replacement member => proper replacement (perm.symm.subset member)
  cases rightClash : firstClash right.replacements with
  | some pair => exact ⟨pair.1, pair.2, rfl⟩
  | none =>
    exact absurd overlap (right.not_overlaps_of_firstClash_eq_none rightProper rightClash _ _
      (among.trans perm.subperm))

/-- Replacements that do not clash have one order only. -/
theorem replacements_eq_of_perm (clean : firstClash left.replacements = none)
    (distinct : (Replacement.insertedAt left.proposed).Nodup) :
    left.replacements = right.replacements := by
  obtain ⟨leftPerm, leftOrdered, _⟩ := left.replacements_stableOrder
  obtain ⟨rightPerm, rightOrdered, _⟩ := right.replacements_stableOrder
  have sorted : left.replacements.Perm right.replacements :=
    leftPerm.trans (perm.trans rightPerm.symm)
  refine List.Perm.eq_of_pairwise ?_ leftOrdered rightOrdered sorted
  intro first second isFirst isSecond forward backward
  have sameSpan : first.span = second.span := Span.eq_of_notAfter _ _ forward backward
  by_contra different
  have isFirst := leftPerm.subset isFirst
  have isSecond := leftPerm.subset (sorted.symm.subset isSecond)
  have among : [first, second].Subperm left.proposed :=
    List.subperm_of_subset (by simpa using different) (by simp [isFirst, isSecond])
  -- Two changes of one span overlap; two insertions at one place are excluded.
  have width : first.span.start = first.span.stop := by
    have apart := left.not_overlaps_of_firstClash_eq_none proper clean first second among
    have forward : first.span.start ≤ first.span.stop := proper first isFirst
    rw [← sameSpan] at apart
    by_contra unequal
    exact apart ⟨by omega, by omega⟩
  have isPoint : first.span.isPoint := (Span.isPoint_iff _).mpr width
  exact Replacement.start_ne_of_nodup _ distinct first second among isPoint (by rwa [← sameSpan])
    (by rw [sameSpan])

/-- Linters of one text whose replacements are the same up to their order both fail by an overlap,
or have the same fixed text. -/
theorem fix_of_perm (sameSource : left.source = right.source)
    (distinct : (Replacement.insertedAt left.proposed).Nodup) :
    ((∃ first second, left.fix = .error (.overlappingReplacements first second)) ∧
        ∃ first second, right.fix = .error (.overlappingReplacements first second)) ∨
      ∃ fixed, left.fix = .ok fixed ∧ right.fix = .ok fixed := by
  cases clash : firstClash left.replacements with
  | some pair =>
    obtain ⟨third, fourth, rightClash⟩ := exists_clash_of_perm left right perm proper _ _ clash
    exact Or.inl ⟨⟨_, _, (left.fix_eq_error_iff _ _).mpr clash⟩,
      ⟨_, _, (right.fix_eq_error_iff _ _).mpr rightClash⟩⟩
  | none =>
    have same := replacements_eq_of_perm left right perm proper clash distinct
    refine Or.inr ⟨_, (left.fix_eq_ok_iff _).mpr ⟨clash, rfl⟩, (right.fix_eq_ok_iff _).mpr ?_⟩
    rw [← same, ← sameSource]
    exact ⟨clash, rfl⟩

end Linter

/-! ### Checks in another order -/

/-- Two orders of registering the same checks, each of which gives the same warnings on a source at
all times: the warnings of both can be fixed to the same text, or neither can be fixed because some
replacements overlap. No two insertions that count may be at one place. -/
theorem Check.fix_of_registered_perm {State : Type} (first second : List (Check State))
    (perm : first.Perm second) (source : Source) (found : Check State → List Warning)
    (gives : ∀ check ∈ first, check.Gives source (found check))
    (proper : ∀ check ∈ first, ∀ warning ∈ found check, ∀ replacement ∈ warning.replacements,
      replacement.Proper)
    (distinct :
      (Replacement.insertedAt (⟨source, first.flatMap found⟩ : Linter).proposed).Nodup) :
    ∃ firstWarnings secondWarnings,
      (runAll first).Gives source firstWarnings ∧ (runAll second).Gives source secondWarnings ∧
        (((∃ one other, (⟨source, firstWarnings⟩ : Linter).fix =
              .error (.overlappingReplacements one other)) ∧
            ∃ one other, (⟨source, secondWarnings⟩ : Linter).fix =
              .error (.overlappingReplacements one other)) ∨
          ∃ fixed, (⟨source, firstWarnings⟩ : Linter).fix = .ok fixed ∧
            (⟨source, secondWarnings⟩ : Linter).fix = .ok fixed) := by
  have secondGives : ∀ check ∈ second, check.Gives source (found check) :=
    fun check member => gives check (perm.symm.subset member)
  refine ⟨_, _, gives_runAll first source found gives, gives_runAll second source found secondGives,
    Linter.fix_of_perm _ _ ?_ ?_ rfl distinct⟩
  · exact ((perm.flatMap_right found).filter _).flatMap_right _
  · intro replacement member
    obtain ⟨warning, counts, isReplacement⟩ := List.mem_flatMap.mp member
    obtain ⟨check, isCheck, inFound⟩ := List.mem_flatMap.mp (List.mem_filter.mp counts).1
    exact proper check isCheck warning inFound replacement isReplacement

/-- The warnings that a check gives on a source at first. -/
def Check.firstFound (source : Source) (check : Check Unit) : List Warning :=
  match (check () ⟨[], []⟩ source).1.result with
  | .ok warnings => warnings
  | .error _ => []

/-- A check that replaces the text of a warning. -/
def Check.replacing (span : Span) (newText : Text) : Check Unit :=
  .ofWarnings fun _ => .ok [⟨span, "message", [⟨span, newText⟩], []⟩]

/-- An insertion before a change and one after it, registered on either side of it. -/
theorem Check.fix_insertionsAround :
    let before := Check.replacing ⟨0, 0⟩ "<"
    let change := Check.replacing ⟨0, 2⟩ "new"
    let after := Check.replacing ⟨2, 2⟩ ">"
    let source := Source.ofText "file" "old" "check"
    ∃ firstWarnings secondWarnings,
      (runAll [before, change, after]).Gives source firstWarnings ∧
        (runAll [after, change, before]).Gives source secondWarnings ∧
        (((∃ one other, (⟨source, firstWarnings⟩ : Linter).fix =
              .error (.overlappingReplacements one other)) ∧
            ∃ one other, (⟨source, secondWarnings⟩ : Linter).fix =
              .error (.overlappingReplacements one other)) ∨
          ∃ fixed, (⟨source, firstWarnings⟩ : Linter).fix = .ok fixed ∧
            (⟨source, secondWarnings⟩ : Linter).fix = .ok fixed) := by
  intro before change after source
  refine Check.fix_of_registered_perm [before, change, after] [after, change, before]
    (List.reverse_perm [after, change, before]) source (firstFound source) ?_ ?_ ?_
  · intro check isCheck
    simp only [List.mem_cons, List.not_mem_nil, or_false] at isCheck
    rcases isCheck with rfl | rfl | rfl <;> exact fun _ _ => rfl
  · decide +kernel
  · decide +kernel

end SourceLint
