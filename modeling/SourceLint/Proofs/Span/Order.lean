/-
This file holds what proofs about spans share: the positions that a span covers, the order of spans
by start and stop, and spans in a row. The order is total and only equal spans are not after each
other both ways, so sorting by it leaves no choice but that between equal spans. Spans in a row come
with a least width of the gaps between them, so that rows that may touch and rows that may not are
the same thing.
-/
import SourceLint.Span

namespace SourceLint.Span

/-- A position lies in a span; the stop does not. -/
def Covers (span : Span) (position : Nat) : Prop :=
  span.start ≤ position ∧ position < span.stop

instance (span : Span) (position : Nat) : Decidable (span.Covers position) :=
  inferInstanceAs (Decidable (_ ∧ _))

/-- A span of width zero. -/
def isPoint (span : Span) : Bool := span.start == span.stop

theorem isPoint_iff (span : Span) : span.isPoint = true ↔ span.start = span.stop := beq_iff_eq

/-! ### The order of spans -/

theorem notAfter_iff (left right : Span) :
    left.notAfter right = true ↔
      left.start < right.start ∨ left.start = right.start ∧ left.stop ≤ right.stop := by
  simp only [notAfter, Bool.or_eq_true, Bool.and_eq_true, decide_eq_true_eq, beq_iff_eq]

theorem notAfter_total (left right : Span) :
    (left.notAfter right || right.notAfter left) = true := by
  rw [Bool.or_eq_true, notAfter_iff, notAfter_iff]
  omega

theorem notAfter_trans (first second third : Span) (left : first.notAfter second = true)
    (right : second.notAfter third = true) : first.notAfter third = true := by
  rw [notAfter_iff] at left right ⊢
  omega

theorem eq_of_notAfter (left right : Span) (forward : left.notAfter right = true)
    (backward : right.notAfter left = true) : left = right := by
  rw [notAfter_iff] at forward backward
  obtain ⟨leftStart, leftStop⟩ := left
  obtain ⟨rightStart, rightStop⟩ := right
  simp only [Span.mk.injEq] at forward backward ⊢
  omega

/-! ### Spans in a row -/

/-- Spans within a length, from a position on, each at least the width of the gap behind what comes
before it. -/
def Row (gap length : Nat) : Nat → List Span → Prop
  | start, [] => start ≤ length
  | start, span :: rest =>
    start + gap ≤ span.start ∧ span.start ≤ span.stop ∧ Row gap length span.stop rest

variable {gap length : Nat}

theorem Row.le {start : Nat} {spans : List Span} (row : Row gap length start spans) :
    start ≤ length := by
  induction spans generalizing start with
  | nil => exact row
  | cons span rest inductionHypothesis =>
    obtain ⟨before, proper, restRow⟩ := row
    calc
      start ≤ span.start := Nat.le_of_add_right_le before
      _ ≤ span.stop := proper
      _ ≤ length := inductionHypothesis restRow

theorem Row.start_le {start : Nat} {spans : List Span} (row : Row gap length start spans)
    {span : Span} (member : span ∈ spans) : start + gap ≤ span.start := by
  induction spans generalizing start with
  | nil => exact absurd member List.not_mem_nil
  | cons first rest inductionHypothesis =>
    obtain ⟨before, proper, restRow⟩ := row
    rcases List.mem_cons.mp member with rfl | later
    · exact before
    · have beyond := inductionHypothesis restRow later
      omega

theorem Row.stop_le {start : Nat} {spans : List Span} (row : Row gap length start spans)
    {span : Span} (member : span ∈ spans) : span.start ≤ span.stop ∧ span.stop ≤ length := by
  induction spans generalizing start with
  | nil => exact absurd member List.not_mem_nil
  | cons first rest inductionHypothesis =>
    obtain ⟨_, proper, restRow⟩ := row
    rcases List.mem_cons.mp member with rfl | later
    · exact ⟨proper, restRow.le⟩
    · exact inductionHypothesis restRow later

/-- Each span of a row keeps the gap to all later ones. -/
theorem Row.pairwise {start : Nat} {spans : List Span} (row : Row gap length start spans) :
    spans.Pairwise fun earlier later => earlier.stop + gap ≤ later.start := by
  induction spans generalizing start with
  | nil => exact .nil
  | cons first rest inductionHypothesis =>
    obtain ⟨_, _, restRow⟩ := row
    exact .cons (fun later member => restRow.start_le member) (inductionHypothesis restRow)

/-- Only points can be in a row twice. -/
theorem Row.nodup_of_points {start : Nat} {spans : List Span} (row : Row gap length start spans)
    (points : (spans.filter isPoint).Nodup) : spans.Nodup := by
  induction spans generalizing start with
  | nil => exact .nil
  | cons span rest inductionHypothesis =>
    obtain ⟨_, proper, restRow⟩ := row
    have restPoints : (rest.filter isPoint).Nodup :=
      points.sublist ((List.sublist_cons_self span rest).filter _)
    refine List.nodup_cons.mpr ⟨fun again => ?_, inductionHypothesis restRow restPoints⟩
    have behind := restRow.start_le again
    have isPoint : span.isPoint = true := (isPoint_iff span).mpr (by omega)
    rw [List.filter_cons_of_pos isPoint, List.nodup_cons] at points
    exact points.1 (List.mem_filter.mpr ⟨again, isPoint⟩)

/-- No span that covers something is in a row twice. -/
theorem Row.nodup {start : Nat} {spans : List Span} (row : Row gap length start spans)
    (covers : ∀ span ∈ spans, span.start < span.stop) : spans.Nodup := by
  refine row.nodup_of_points ?_
  rw [List.filter_eq_nil_iff.mpr fun span member isPoint => ?_]
  · exact .nil
  · exact absurd ((isPoint_iff span).mp isPoint) (Nat.ne_of_lt (covers span member))

/-- A row may begin earlier. -/
theorem Row.of_le {start earlier : Nat} {spans : List Span} (row : Row gap length start spans)
    (before : earlier ≤ start) : Row gap length earlier spans := by
  cases spans with
  | nil => exact Nat.le_trans before row
  | cons first rest => exact ⟨by have := row.1; omega, row.2⟩

/-- Two rows of which the second begins where the first ends. -/
theorem Row.append {start middle : Nat} {left right : List Span}
    (leftRow : Row gap middle start left) (rightRow : Row gap length middle right) :
    Row gap length start (left ++ right) := by
  induction left generalizing start with
  | nil => exact rightRow.of_le leftRow
  | cons first rest inductionHypothesis =>
    obtain ⟨before, proper, restRow⟩ := leftRow
    exact ⟨before, proper, inductionHypothesis restRow⟩

/-- Spans of which each keeps the gap to all later ones are in a row. -/
theorem row_of_pairwise (start : Nat) (spans : List Span) (forward : start ≤ length)
    (apart : spans.Pairwise fun earlier later => earlier.stop + gap ≤ later.start)
    (bounds : ∀ span ∈ spans,
      start + gap ≤ span.start ∧ span.start ≤ span.stop ∧ span.stop ≤ length) :
    Row gap length start spans := by
  induction spans generalizing start with
  | nil => exact forward
  | cons span rest inductionHypothesis =>
    obtain ⟨restBehind, restApart⟩ := List.pairwise_cons.mp apart
    obtain ⟨⟨before, proper, inside⟩, restBounds⟩ := List.forall_mem_cons.mp bounds
    refine ⟨before, proper, inductionHypothesis _ inside restApart fun later member => ?_⟩
    exact ⟨restBehind later member, (restBounds later member).2⟩

/-- Some of the spans of a row are in a row. -/
theorem Row.sublist {start : Nat} {spans part : List Span} (row : Row gap length start spans)
    (isPart : part.Sublist spans) : Row gap length start part :=
  row_of_pairwise start part row.le (row.pairwise.sublist isPart) fun _ member =>
    ⟨row.start_le (isPart.subset member), row.stop_le (isPart.subset member)⟩

/-- A row goes no further than its last span. -/
theorem Row.stop_last {start : Nat} {spans : List Span} {last : Span}
    (row : Row gap length start spans) (isLast : spans.getLast? = some last) :
    Row gap last.stop start spans := by
  induction spans generalizing start with
  | nil => cases isLast
  | cons span rest inductionHypothesis =>
    obtain ⟨before, proper, restRow⟩ := row
    cases rest with
    | nil =>
      cases isLast
      exact ⟨before, proper, Nat.le_refl _⟩
    | cons next others =>
      rw [List.getLast?_cons_cons] at isLast
      exact ⟨before, proper, inductionHypothesis restRow isLast⟩

end SourceLint.Span
