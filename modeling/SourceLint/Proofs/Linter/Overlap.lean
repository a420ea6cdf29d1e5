/-
This file proves when the fix of a text fails. The replacements are sorted by their spans and only
neighbours are compared, yet no overlap is missed: if each replacement ends before its successor
starts, then it ends before all later ones start, since none ends before it starts itself. There is
no false alarm either. A neighbour that starts inside a replacement overlaps it even if it has width
zero, because among spans with one start the sort puts those of width zero first.
-/
import Mathlib.Data.List.Perm.Subperm
import SourceLint.Linter
import SourceLint.Proofs.Span.Order

namespace SourceLint

/-- A list holds the replacements of another in the order of their spans; those of equal spans keep
the order in which they were given. -/
structure Replacement.StableOrder (given sorted : List Replacement) : Prop where
  perm : sorted.Perm given
  ordered : sorted.Pairwise fun earlier later => earlier.span.notAfter later.span = true
  stable : ∀ span : Span,
    sorted.filter (fun replacement => replacement.span = span) =
      given.filter fun replacement => replacement.span = span

/-- A replacement does not stop before it starts. -/
def Replacement.Proper (replacement : Replacement) : Prop :=
  replacement.span.start ≤ replacement.span.stop

instance (replacement : Replacement) : Decidable replacement.Proper :=
  inferInstanceAs (Decidable (_ ≤ _))

/-- No two replacements overlap if none overlaps those after it. -/
theorem Replacement.not_overlaps_of_pairwise {replacements : List Replacement}
    (disjoint : replacements.Pairwise fun left right => ¬left.span.Overlaps right.span)
    {first second : Replacement} (among : [first, second].Subperm replacements) :
    ¬first.span.Overlaps second.span := by
  obtain ⟨pair, samePair, inOrder⟩ := among
  have pairDisjoint := (samePair.pairwise_iff fun {left right} apart overlap =>
    apart ⟨overlap.2, overlap.1⟩).mp (disjoint.sublist inOrder)
  exact List.pairwise_pair.mp pairDisjoint

namespace Linter

/-- The replacements of the warnings that count, in the order in which they came. -/
def proposed (linter : Linter) : List Replacement := linter.counted.flatMap Warning.replacements

/-! ### The order of the replacements -/

/-- The fix takes the proposed replacements in the order of their spans. -/
theorem replacements_stableOrder (linter : Linter) :
    Replacement.StableOrder linter.proposed linter.replacements := by
  have trans (first second third : Replacement)
      (left : first.span.notAfter second.span = true)
      (right : second.span.notAfter third.span = true) :
      first.span.notAfter third.span = true := Span.notAfter_trans _ _ _ left right
  have total (left right : Replacement) :
      (left.span.notAfter right.span || right.span.notAfter left.span) = true :=
    Span.notAfter_total _ _
  have perm : linter.replacements.Perm linter.proposed := List.mergeSort_perm _ _
  refine ⟨perm, List.pairwise_mergeSort trans total _, fun span => ?_⟩
  -- The replacements of one span are in order as they are given, and so is every sublist of them.
  have together : (linter.proposed.filter fun replacement => replacement.span = span).Sublist
      linter.replacements := by
    refine List.sublist_mergeSort trans total ?_ List.filter_sublist
    refine List.pairwise_of_forall_mem_list fun left leftMember right rightMember => ?_
    rw [of_decide_eq_true (List.mem_filter.mp leftMember).2,
      of_decide_eq_true (List.mem_filter.mp rightMember).2, Span.notAfter_iff]
    exact Or.inr ⟨rfl, Nat.le_refl _⟩
  have filtered := together.filter fun replacement => replacement.span = span
  rw [List.filter_filter] at filtered
  simp only [Bool.and_self] at filtered
  exact (filtered.eq_of_length (perm.filter _).length_eq.symm).symm

/-- Replacements that are proposed in the order of their spans stay in that order. -/
theorem replacements_eq_proposed (linter : Linter)
    (ordered : linter.proposed.Pairwise fun earlier later =>
      earlier.span.notAfter later.span = true) : linter.replacements = linter.proposed :=
  List.mergeSort_of_pairwise ordered

/-! ### Neighbours -/

/-- A pair that is reported as clashing are neighbours, and the second starts inside the first. -/
theorem firstClash_eq_some (replacements : List Replacement) (first second : Replacement)
    (clash : firstClash replacements = some (first, second)) :
    [first, second].Sublist replacements ∧ second.span.start < first.span.stop := by
  fun_induction firstClash replacements with
  | case1 => exact absurd clash (by simp)
  | case2 => exact absurd clash (by simp)
  | case3 current next rest beyond =>
    cases clash
    exact ⟨List.Sublist.cons_cons _ (List.Sublist.cons_cons _ (List.nil_sublist _)), beyond⟩
  | case4 current next rest _ inductionHypothesis =>
    obtain ⟨among, beyond⟩ := inductionHypothesis clash
    exact ⟨among.cons current, beyond⟩

/-- Without clashing neighbours each replacement stops before all later ones start. -/
theorem pairwise_of_firstClash_eq_none (replacements : List Replacement)
    (proper : ∀ replacement ∈ replacements, replacement.Proper)
    (clean : firstClash replacements = none) :
    replacements.Pairwise fun earlier later => earlier.span.stop ≤ later.span.start := by
  fun_induction firstClash replacements with
  | case1 => exact List.Pairwise.nil
  | case2 => exact List.pairwise_singleton _ _
  | case3 => exact absurd clean (by simp)
  | case4 current next rest apart inductionHypothesis =>
    obtain ⟨_, restProper⟩ := List.forall_mem_cons.mp proper
    have restApart := inductionHypothesis restProper clean
    refine List.pairwise_cons.mpr ⟨fun later member => ?_, restApart⟩
    rcases List.mem_cons.mp member with rfl | inRest
    · exact Nat.le_of_not_lt apart
    -- The successor lies in between.
    · have nextProper : next.span.start ≤ next.span.stop := restProper next List.mem_cons_self
      have beyond := (List.pairwise_cons.mp restApart).1 later inRest
      omega

/-- Of two ordered spans the second overlaps the first as soon as it starts inside it. -/
theorem overlaps_of_notAfter (first second : Replacement)
    (ordered : first.span.notAfter second.span = true) (proper : second.Proper)
    (inside : second.span.start < first.span.stop) : first.span.Overlaps second.span := by
  rw [Span.notAfter_iff] at ordered
  have forward : second.span.start ≤ second.span.stop := proper
  refine ⟨?_, inside⟩
  omega

/-! ### When the fix fails -/

theorem fix_eq_error_iff (linter : Linter) (first second : Replacement) :
    linter.fix = .error (.overlappingReplacements first second) ↔
      firstClash linter.replacements = some (first, second) := by
  rw [fix]
  cases firstClash linter.replacements with
  | none => simp
  | some clash => simp [Prod.ext_iff]

theorem fix_eq_ok_iff (linter : Linter) (fixed : Text) :
    linter.fix = .ok fixed ↔
      firstClash linter.replacements = none ∧
        splice linter.source.content 0 linter.replacements = fixed := by
  rw [fix]
  cases firstClash linter.replacements with
  | none => simp
  | some clash => simp

/-- The two replacements that a failing fix reports overlap. -/
theorem overlaps_of_fix_eq_error (linter : Linter)
    (proper : ∀ replacement ∈ linter.proposed, replacement.Proper) (first second : Replacement)
    (fails : linter.fix = .error (.overlappingReplacements first second)) :
    [first, second].Subperm linter.proposed ∧ first.span.Overlaps second.span := by
  obtain ⟨perm, ordered, _⟩ := linter.replacements_stableOrder
  obtain ⟨among, inside⟩ := firstClash_eq_some _ _ _ ((linter.fix_eq_error_iff _ _).mp fails)
  have inOrder := ordered.sublist among
  rw [List.pairwise_pair] at inOrder
  have secondProper : second.Proper :=
    proper second (perm.subset (among.subset (List.mem_cons_of_mem _ (List.mem_singleton_self _))))
  exact ⟨among.subperm.trans perm.subperm, overlaps_of_notAfter _ _ inOrder secondProper inside⟩

/-- If no neighbours clash then no two replacements overlap. -/
theorem not_overlaps_of_firstClash_eq_none (linter : Linter)
    (proper : ∀ replacement ∈ linter.proposed, replacement.Proper)
    (clean : firstClash linter.replacements = none) (first second : Replacement)
    (among : [first, second].Subperm linter.proposed) : ¬first.span.Overlaps second.span := by
  obtain ⟨perm, _, _⟩ := linter.replacements_stableOrder
  have apart := pairwise_of_firstClash_eq_none _
    (fun replacement member => proper replacement (perm.subset member)) clean
  have disjoint : linter.replacements.Pairwise fun left right =>
      ¬left.span.Overlaps right.span :=
    apart.imp fun before overlap => absurd overlap.2 (Nat.not_lt_of_le before)
  exact Replacement.not_overlaps_of_pairwise disjoint (among.trans perm.symm.subperm)

/-- A fix fails exactly if two of the replacements that count overlap, taken as entries of the list
of replacements so that two equal ones are two. The two that it reports overlap. What the warnings
that do not count propose has no influence. -/
theorem fix_fails_iff_overlap (linter : Linter)
    (proper : ∀ replacement ∈ linter.proposed, replacement.Proper) :
    ((∃ first second, linter.fix = .error (.overlappingReplacements first second)) ↔
        ∃ first second, [first, second].Subperm linter.proposed ∧
          first.span.Overlaps second.span) ∧
      (∀ first second, linter.fix = .error (.overlappingReplacements first second) →
        [first, second].Subperm linter.proposed ∧ first.span.Overlaps second.span) ∧
      ∀ warnings : List Warning, warnings.filter linter.source.isEnabled = linter.counted →
        (⟨linter.source, warnings⟩ : Linter).fix = linter.fix := by
  refine ⟨⟨?_, ?_⟩, linter.overlaps_of_fix_eq_error proper, fun warnings same => ?_⟩
  · rintro ⟨first, second, fails⟩
    exact ⟨first, second, linter.overlaps_of_fix_eq_error proper first second fails⟩
  · rintro ⟨first, second, among, overlap⟩
    cases clash : firstClash linter.replacements with
    | none =>
      exact absurd overlap (linter.not_overlaps_of_firstClash_eq_none proper clash _ _ among)
    | some pair => exact ⟨pair.1, pair.2, (linter.fix_eq_error_iff _ _).mpr clash⟩
  · have sameCounted : (⟨linter.source, warnings⟩ : Linter).counted = linter.counted := same
    rw [fix, fix, replacements, replacements, sameCounted]

/-- A text with an insertion strictly inside a change, and one at the start of the change that does
not overlap it. -/
def insertionInside : Linter :=
  ⟨Source.ofText "notes.txt" "abcdef" "check",
    [⟨⟨1, 4⟩, "message", [⟨⟨3, 3⟩, "X"⟩, ⟨⟨1, 4⟩, "Y"⟩, ⟨⟨1, 1⟩, "Z"⟩], []⟩]⟩

theorem fix_insertionInside :
    (∀ replacement ∈ insertionInside.proposed, replacement.Proper) ∧
      ∃ first second, insertionInside.fix = .error (.overlappingReplacements first second) := by
  have given : insertionInside.proposed = [⟨⟨3, 3⟩, "X"⟩, ⟨⟨1, 4⟩, "Y"⟩, ⟨⟨1, 1⟩, "Z"⟩] := by
    decide +kernel
  have proper : ∀ replacement ∈ insertionInside.proposed, replacement.Proper := by
    rw [given]
    decide
  have among : [⟨⟨3, 3⟩, "X"⟩, ⟨⟨1, 4⟩, "Y"⟩].Subperm insertionInside.proposed := by
    rw [given]
    exact (List.prefix_append _ [_]).sublist.subperm
  exact ⟨proper, (fix_fails_iff_overlap insertionInside proper).1.mpr ⟨_, _, among, by decide⟩⟩

end Linter

end SourceLint
