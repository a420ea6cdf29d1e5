/-
Spans of a text: a start and a stop counted in code units, the stop not included. A span of width
zero is a place for an insertion. Nothing here forces a start before its stop; what needs that says
so itself.
-/
import SourceLint.Text

namespace SourceLint

/-- A stretch of a text from `start` up to `stop`. -/
structure Span where
  start : Nat
  stop : Nat
  deriving DecidableEq, Repr, Inhabited

namespace Span

/-- The span of width zero at a position. -/
def point (position : Nat) : Span := ⟨position, position⟩

/-- A span moved to the right. -/
def shift (span : Span) (distance : Nat) : Span := ⟨span.start + distance, span.stop + distance⟩

/-- The part of a text that a span covers. -/
def text (span : Span) (content : Text) : Text := content.slice span.start span.stop

/-- The order of spans: by start, then by stop. -/
def notAfter (left right : Span) : Bool :=
  left.start < right.start || (left.start == right.start && left.stop ≤ right.stop)

/-- Two spans share a position that lies strictly inside both. -/
def Overlaps (left right : Span) : Prop := left.start < right.stop ∧ right.start < left.stop

instance (left right : Span) : Decidable (Overlaps left right) :=
  inferInstanceAs (Decidable (_ ∧ _))

/-- Spans in their order; those that are equal keep the order in which they were given. -/
def sort (spans : List Span) : List Span := spans.mergeSort notAfter

/-- The written form of a span. -/
def describe (span : Span) : Text :=
  "[" ++ Text.ofNat span.start ++ ", " ++ Text.ofNat span.stop ++ "]"

end Span

end SourceLint
