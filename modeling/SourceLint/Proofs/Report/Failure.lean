/-
This file says when a report breaks off: exactly if some warning that counts has a place, for itself
or for one of its notes or replacements, whose start is in no line. So the only failures of a report
are those of looking up a position.
-/
import SourceLint.Report

namespace SourceLint

/-- The places that a warning names: its own, those of its notes and those of its replacements. -/
def Warning.spans (warning : Warning) : List Span :=
  warning.span :: warning.notes.map Note.span ++ warning.replacements.map Replacement.span

theorem Warning.mem_spans_iff (warning : Warning) (span : Span) :
    span ∈ warning.spans ↔
      span = warning.span ∨ (∃ note ∈ warning.notes, note.span = span) ∨
        ∃ replacement ∈ warning.replacements, replacement.span = span := by
  simp only [Warning.spans, List.mem_append, List.mem_cons, List.mem_map, or_assoc]

/-- A failed look-up of a position. -/
inductive LintError.IsMisplaced : LintError → Prop
  | outside (position : Int) : IsMisplaced (.positionOutside position)
  | inSeparator (position : Int) : IsMisplaced (.positionInSeparator position)

/-- The look-up of a position fails in no other way. -/
theorem Lines.isMisplaced_of_lineAt_eq_error (lines : Lines) (position : Int) (error : LintError)
    (fails : lines.lineAt position = .error error) : error.IsMisplaced := by
  rw [lineAt] at fails
  split at fails
  · cases fails
    exact .outside position
  · split at fails
    · cases fails
    · cases fails
      exact .inSeparator position

namespace Report

/-! ### The parts of a report -/

/-- An excerpt fails as the look-up of its start does. -/
theorem excerpt_eq_error_iff (source : Source) (span : Span) (error : LintError) :
    excerpt source span = .error error ↔ source.lines.lineAt span.start = .error error := by
  cases looked : source.lines.lineAt span.start <;> simp [excerpt, looked, bind, Except.bind, pure,
    Except.pure]

theorem remark_eq_error_iff (style : Style) (source : Source) (title : Text) (span : Span)
    (message : Text) (error : LintError) :
    remark style source title span message = .error error ↔
      source.lines.lineAt span.start = .error error := by
  rw [← excerpt_eq_error_iff]
  cases cut : excerpt source span <;> simp [remark, cut, bind, Except.bind, pure, Except.pure]

theorem proposal_eq_error_iff (style : Style) (source : Source) (fixApplied : Bool)
    (replacement : Replacement) (error : LintError) :
    proposal style source fixApplied replacement = .error error ↔
      source.lines.lineAt replacement.span.start = .error error := by
  rw [← excerpt_eq_error_iff]
  cases cut : excerpt source replacement.span <;>
    simp [proposal, cut, bind, Except.bind, pure, Except.pure]

/-- The part on a warning that fails is the one on a place whose start is in no line. -/
theorem error_mem_parts_iff (style : Style) (source : Source) (fixApplied : Bool)
    (warning : Warning) (error : LintError) :
    .error error ∈ parts style source fixApplied warning ↔
      ∃ span ∈ warning.spans, source.lines.lineAt span.start = .error error := by
  have remarks (note : Note) :
      remark style source "note:" note.span note.message = .error error ↔
        source.lines.lineAt note.span.start = .error error :=
    remark_eq_error_iff style source _ note.span note.message error
  rw [parts, List.mem_append, List.mem_cons, eq_comm (a := Except.error error),
    remark_eq_error_iff, List.mem_map, List.mem_map]
  simp only [remarks, proposal_eq_error_iff, Warning.mem_spans_iff, or_assoc]
  constructor
  · rintro (own | ⟨note, member, fails⟩ | ⟨replacement, member, fails⟩)
    · exact ⟨_, Or.inl rfl, own⟩
    · exact ⟨_, Or.inr (Or.inl ⟨note, member, rfl⟩), fails⟩
    · exact ⟨_, Or.inr (Or.inr ⟨replacement, member, rfl⟩), fails⟩
  · rintro ⟨span, rfl | ⟨note, member, rfl⟩ | ⟨replacement, member, rfl⟩, fails⟩
    · exact Or.inl fails
    · exact Or.inr (Or.inl ⟨note, member, fails⟩)
    · exact Or.inr (Or.inr ⟨replacement, member, fails⟩)

/-! ### The whole report -/

/-- A report that breaks off does so at one of its parts. -/
theorem error_mem_of_failure_ofParts (parts : List (Except LintError (List Text)))
    (error : LintError) (fails : (ofParts parts).failure = some error) : .error error ∈ parts := by
  induction parts with
  | nil => cases fails
  | cons part rest inductionHypothesis =>
    cases part with
    | error first =>
      cases fails
      exact List.mem_cons_self
    | ok lines => exact List.mem_cons_of_mem _ (inductionHypothesis fails)

/-- A report without a failure has no part that fails. -/
theorem error_not_mem_of_failure_ofParts (parts : List (Except LintError (List Text)))
    (whole : (ofParts parts).failure = none) (error : LintError) : .error error ∉ parts := by
  induction parts with
  | nil => exact List.not_mem_nil
  | cons part rest inductionHypothesis =>
    cases part with
    | error first => cases whole
    | ok lines =>
      intro member
      rcases List.mem_cons.mp member with impossible | later
      · cases impossible
      · exact inductionHypothesis whole later

theorem mem_enabledWarnings_iff (linter : Linter) (warning : Warning) :
    warning ∈ linter.enabledWarnings ↔ warning ∈ linter.counted :=
  (List.mergeSort_perm _ _).mem_iff

variable (style : Style) (linter : Linter) (fixApplied : Bool)

theorem exists_of_failure_ofLinter (error : LintError)
    (fails : (ofLinter style linter fixApplied).failure = some error) :
    ∃ warning ∈ linter.counted, ∃ span ∈ warning.spans,
      linter.source.lines.lineAt span.start = .error error := by
  obtain ⟨warning, enabled, inParts⟩ :=
    List.mem_flatMap.mp (error_mem_of_failure_ofParts _ error fails)
  exact ⟨warning, (mem_enabledWarnings_iff linter warning).mp enabled,
    (error_mem_parts_iff style linter.source fixApplied warning error).mp inParts⟩

/-- A report is whole exactly if each place that a warning that counts names starts in a line. -/
theorem failure_ofLinter_eq_none_iff :
    (ofLinter style linter fixApplied).failure = none ↔
      ∀ warning ∈ linter.counted, ∀ span ∈ warning.spans,
        ∃ number, linter.source.lines.lineAt span.start = .ok number := by
  constructor
  · intro whole warning counts span inSpans
    cases looked : linter.source.lines.lineAt span.start with
    | ok number => exact ⟨number, rfl⟩
    | error error =>
      have inParts := (error_mem_parts_iff style linter.source fixApplied warning error).mpr
        ⟨span, inSpans, looked⟩
      exact absurd (List.mem_flatMap.mpr
        ⟨warning, (mem_enabledWarnings_iff linter warning).mpr counts, inParts⟩)
        (error_not_mem_of_failure_ofParts _ whole error)
  · intro placed
    cases failure : (ofLinter style linter fixApplied).failure with
    | none => rfl
    | some error =>
      obtain ⟨warning, counts, span, inSpans, fails⟩ :=
        exists_of_failure_ofLinter style linter fixApplied error failure
      obtain ⟨number, found⟩ := placed warning counts span inSpans
      rw [found] at fails
      cases fails

/-- A report fails only by the look-up of a position. -/
theorem isMisplaced_of_failure_ofLinter (error : LintError)
    (fails : (ofLinter style linter fixApplied).failure = some error) : error.IsMisplaced := by
  obtain ⟨_, _, span, _, looked⟩ := exists_of_failure_ofLinter style linter fixApplied error fails
  exact Lines.isMisplaced_of_lineAt_eq_error _ _ error looked

end Report

end SourceLint
