/-
This file says what checks owe the linter: every place that a warning names lies in the text and
starts at no position between the two units of a line ending, and no two replacements overlap. Then
neither the fix nor the report can fail, whatever the directives of the text say.
-/
import Mathlib.Data.List.Flatten
import SourceLint.Proofs.Lines.Lookup
import SourceLint.Proofs.Linter.Overlap
import SourceLint.Proofs.Report.Failure

namespace SourceLint

/-- A span lies in a text and does not start inside a line ending. -/
def Span.PlacedIn (span : Span) (content : Text) : Prop :=
  span.start ≤ span.stop ∧ span.stop ≤ content.length ∧ ¬content.SplitsBreak span.start

instance (span : Span) (content : Text) : Decidable (span.PlacedIn content) :=
  inferInstanceAs (Decidable (_ ∧ _))

/-- All places that a warning names lie in a text. -/
def Warning.PlacedIn (warning : Warning) (content : Text) : Prop :=
  ∀ span ∈ warning.spans, span.PlacedIn content

instance (warning : Warning) (content : Text) : Decidable (warning.PlacedIn content) :=
  inferInstanceAs (Decidable (∀ span ∈ _, _))

/-- No two entries of a list of replacements overlap. -/
def Replacement.Apart (replacements : List Replacement) : Prop :=
  ∀ first second, [first, second].Subperm replacements → ¬first.span.Overlaps second.span

/-- The warnings of a check name places in the text only, and their replacements are apart. -/
structure Sound (content : Text) (warnings : List Warning) : Prop where
  placed : ∀ warning ∈ warnings, warning.PlacedIn content
  apart : Replacement.Apart (warnings.flatMap Warning.replacements)

/-! ### Spans and warnings -/

namespace Span.PlacedIn

theorem point {content : Text} {position : Nat} (inside : position ≤ content.length)
    (whole : ¬content.SplitsBreak position) : (Span.point position).PlacedIn content :=
  ⟨Nat.le_refl _, inside, whole⟩

theorem point_zero (content : Text) : (Span.point 0).PlacedIn content :=
  point (Nat.zero_le _) content.not_splitsBreak_zero

theorem point_length (content : Text) : (Span.point content.length).PlacedIn content :=
  point (Nat.le_refl _) content.not_splitsBreak_length

/-- A span in a line is placed. -/
theorem of_line {content : Text} {span : Span} (line : Line)
    (member : line ∈ (Lines.ofText content).all) (after : line.start ≤ span.start)
    (proper : span.start ≤ span.stop) (before : span.stop ≤ line.stop) : span.PlacedIn content :=
  ⟨proper, Nat.le_trans before (Lines.stop_le_length content line member),
    Lines.not_splitsBreak_of_mem content line member span.start after
      (Nat.le_trans proper before)⟩

end Span.PlacedIn

namespace Warning.PlacedIn

variable {warning : Warning} {content : Text}

theorem of_parts (own : warning.span.PlacedIn content)
    (notes : ∀ note ∈ warning.notes, note.span.PlacedIn content)
    (replacements : ∀ replacement ∈ warning.replacements, replacement.span.PlacedIn content) :
    warning.PlacedIn content := by
  intro span member
  rcases (warning.mem_spans_iff span).mp member with
    rfl | ⟨note, isNote, rfl⟩ | ⟨replacement, isReplacement, rfl⟩
  · exact own
  · exact notes note isNote
  · exact replacements replacement isReplacement

theorem replacement (placed : warning.PlacedIn content) (replacement : Replacement)
    (member : replacement ∈ warning.replacements) : replacement.span.PlacedIn content :=
  placed _ ((warning.mem_spans_iff _).mpr (Or.inr (Or.inr ⟨replacement, member, rfl⟩)))

end Warning.PlacedIn

/-! ### Replacements that are apart -/

namespace Replacement

/-- Two replacements of a list that is part of one whose entries are apart. -/
theorem Apart.subperm {all some : List Replacement} (apart : Apart all)
    (part : some.Subperm all) : Apart some := fun first second among =>
  apart first second (among.trans part)

/-- Replacements are apart if each is apart from all after it. -/
theorem apart_of_pairwise (replacements : List Replacement)
    (disjoint : replacements.Pairwise fun left right => ¬left.span.Overlaps right.span) :
    Apart replacements := fun _ _ => not_overlaps_of_pairwise disjoint

/-- Replacements that follow one another are apart. -/
theorem apart_of_row (replacements : List Replacement)
    (inRow : replacements.Pairwise fun left right => left.span.stop ≤ right.span.start) :
    Apart replacements :=
  apart_of_pairwise _ (inRow.imp fun before overlap =>
    absurd overlap.2 (Nat.not_lt_of_le before))

/-- Insertions are apart, also at one place. -/
theorem apart_of_points (replacements : List Replacement)
    (points : ∀ replacement ∈ replacements, replacement.span.start = replacement.span.stop) :
    Apart replacements := by
  refine apart_of_pairwise _ (List.pairwise_of_forall_mem_list fun left isLeft right isRight => ?_)
  have leftPoint := points left isLeft
  have rightPoint := points right isRight
  rintro ⟨forward, backward⟩
  omega

end Replacement

/-! ### The fix and the report -/

namespace Linter

/-- What counts is part of what is given. -/
theorem counted_sublist (linter : Linter) : linter.counted.Sublist linter.warnings :=
  List.filter_sublist

theorem proposed_subperm (linter : Linter) :
    linter.proposed.Subperm (linter.warnings.flatMap Warning.replacements) :=
  (linter.counted_sublist.flatMap _).subperm

/-- Replacements that are apart can be put in. -/
theorem firstClash_eq_none_of_apart (linter : Linter)
    (proper : ∀ replacement ∈ linter.proposed, replacement.Proper)
    (apart : Replacement.Apart linter.proposed) : firstClash linter.replacements = none := by
  cases clash : firstClash linter.replacements with
  | none => rfl
  | some pair =>
    obtain ⟨among, overlap⟩ := linter.overlaps_of_fix_eq_error proper pair.1 pair.2
      ((linter.fix_eq_error_iff _ _).mpr clash)
    exact absurd overlap (apart _ _ among)

/-- A report on warnings that are placed is whole. -/
theorem failure_ofLinter_of_placed (filename content : Text) (regions : List Region)
    (warnings : List Warning) (placed : ∀ warning ∈ warnings, warning.PlacedIn content)
    (style : Style) (fixApplied : Bool) :
    (Report.ofLinter style ⟨⟨filename, Lines.ofText content, regions⟩, warnings⟩
      fixApplied).failure = none := by
  refine (Report.failure_ofLinter_eq_none_iff _ _ _).mpr fun warning counts span member => ?_
  obtain ⟨forward, inside, whole⟩ :=
    placed warning ((counted_sublist _).subset counts) span member
  exact Lines.exists_lineAt_eq_ok content span.start (Nat.le_trans forward inside) whole

/-- Sound warnings can be fixed and reported. -/
theorem fix_report_of_sound (filename content : Text) (regions : List Region)
    (warnings : List Warning) (sound : Sound content warnings) :
    (∃ fixed, (⟨⟨filename, Lines.ofText content, regions⟩, warnings⟩ : Linter).fix = .ok fixed) ∧
      ∀ style fixApplied,
        (Report.ofLinter style ⟨⟨filename, Lines.ofText content, regions⟩, warnings⟩
          fixApplied).failure = none := by
  refine ⟨?_, failure_ofLinter_of_placed filename content regions warnings sound.placed⟩
  let linter : Linter := ⟨⟨filename, Lines.ofText content, regions⟩, warnings⟩
  have proper : ∀ replacement ∈ linter.proposed, replacement.Proper := by
    intro replacement member
    obtain ⟨warning, counts, isReplacement⟩ := List.mem_flatMap.mp member
    exact ((sound.placed warning (linter.counted_sublist.subset counts)).replacement replacement
      isReplacement).1
  have clean := linter.firstClash_eq_none_of_apart proper
    (sound.apart.subperm linter.proposed_subperm)
  exact ⟨_, (linter.fix_eq_ok_iff _).mpr ⟨clean, rfl⟩⟩

end Linter

end SourceLint
