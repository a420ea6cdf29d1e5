/-
What a check says about a text: warnings, each at a span, with the replacements that would mend it
and the notes that explain it. Nothing is verified here; a warning may point anywhere.
-/
import SourceLint.Span
import SourceLint.Text.Quoted

namespace SourceLint

/-- A remark at a further place that belongs to a warning. -/
structure Note where
  span : Span
  message : Text
  deriving DecidableEq, Repr

/-- The proposal to put a new text in the place of a span. -/
structure Replacement where
  span : Span
  newText : Text
  deriving DecidableEq, Repr

/-- A finding at a span of the text. -/
structure Warning where
  span : Span
  message : Text
  replacements : List Replacement := []
  notes : List Note := []
  deriving DecidableEq, Repr

/-- The written form of a note. -/
def Note.describe (note : Note) : Text :=
  "Note(pos=" ++ note.span.describe ++ ", msg=" ++ note.message.quote ++ ")"

/-- The written form of a replacement. -/
def Replacement.describe (replacement : Replacement) : Text :=
  "Replacement(pos=" ++ replacement.span.describe ++ ", newText=" ++ replacement.newText.quote ++
    ")"

/-- The warning with one more replacement, after those it has. -/
def Warning.addReplacement (warning : Warning) (span : Span) (newText : Text) : Warning :=
  { warning with replacements := warning.replacements ++ [⟨span, newText⟩] }

/-- The warning with one more note, after those it has. -/
def Warning.addNote (warning : Warning) (span : Span) (message : Text) : Warning :=
  { warning with notes := warning.notes ++ [⟨span, message⟩] }

end SourceLint
