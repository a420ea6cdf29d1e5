/-
The report on a source: for each warning that counts, by its span, the place, the line with the span
set off and the message, then its notes and its replacements. A replacement shows its line before and
after; when more than one line is involved it shows the first and says that the rest is too long. A
place that is in no line ends the report; what came before it stays.
-/
import SourceLint.Linter

namespace SourceLint

/-- How the parts of a report are set off: what a terminal makes of bold, red and green texts. -/
structure Style where
  bold : Text → Text
  red : Text → Text
  green : Text → Text

/-- Nothing is set off. -/
def Style.plain : Style := ⟨id, id, id⟩

/-- Printed lines, and the failure that ended the printing, if one did. -/
structure Report where
  lines : List Text
  failure : Option LintError

namespace Report

/-- The line of a span, cut at the span. -/
structure Excerpt where
  line : Nat
  column : Nat
  before : Text
  marked : Text
  after : Text
  /-- The span goes on past the end of its first line. -/
  truncated : Bool

/-- The excerpt of a source at a span. -/
def excerpt (source : Source) (span : Span) : Except LintError Excerpt := do
  let number ← source.lines.lineAt span.start
  let line := (source.lines.all[number]?).getD ⟨0, [], none⟩
  let right := min span.stop line.stop
  return {
    line := number
    column := span.start - line.start
    before := source.content.slice line.start span.start
    marked := source.content.slice span.start right
    after := source.content.slice right line.stop
    truncated := span.stop > line.stop }

/-- The line that tells the place of an excerpt. Lines and columns count from one. -/
def location (style : Style) (source : Source) (excerpt : Excerpt) : Text :=
  "In file " ++
    style.bold
      (source.filename ++ ":" ++ Text.ofNat (excerpt.line + 1) ++ ":" ++
        Text.ofNat (excerpt.column + 1)) ++
    ":"

/-- A message at a span: its place, its line, and the message under a title. -/
def remark (style : Style) (source : Source) (title : Text) (span : Span) (message : Text) :
    Except LintError (List Text) := do
  let excerpt ← excerpt source span
  return [
    location style source excerpt,
    " " ++ excerpt.before ++ style.bold excerpt.marked ++ excerpt.after,
    style.bold title ++ " " ++ message,
    []]

/-- What the report says of a replacement. -/
def replacementNote (fixApplied tooLong : Bool) : Text :=
  if fixApplied then
    if tooLong then "suggested fix applied but is too long to display" else "suggested fix applied"
  else if tooLong then "suggested fix is too long to display, use --fix to apply it"
  else "suggested fix"

/-- A replacement: its place, its line before and after, and a note. -/
def proposal (style : Style) (source : Source) (fixApplied : Bool) (replacement : Replacement) :
    Except LintError (List Text) := do
  let excerpt ← excerpt source replacement.span
  let newLines := (Lines.ofText replacement.newText).all
  let firstLine := ((newLines.head?).map Line.text).getD []
  let tooLong := excerpt.truncated || newLines.length > 1
  return [
    location style source excerpt,
    style.red ("-" ++ excerpt.before ++ style.bold excerpt.marked ++ excerpt.after),
    style.green
      ("+" ++ excerpt.before ++ style.bold firstLine ++ if tooLong then [] else excerpt.after),
    style.bold "note:" ++ " " ++ replacementNote fixApplied tooLong,
    []]

/-- The parts of the report on a warning. -/
def parts (style : Style) (source : Source) (fixApplied : Bool) (warning : Warning) :
    List (Except LintError (List Text)) :=
  remark style source "warning:" warning.span warning.message ::
    (warning.notes.map fun note => remark style source "note:" note.span note.message) ++
    warning.replacements.map (proposal style source fixApplied)

/-- The lines of parts, up to the first that fails. -/
def ofParts : List (Except LintError (List Text)) → Report
  | [] => ⟨[], none⟩
  | .error error :: _ => ⟨[], some error⟩
  | .ok lines :: rest =>
    let report := ofParts rest
    ⟨lines ++ report.lines, report.failure⟩

/-- The report on a linter's warnings. -/
def ofLinter (style : Style) (linter : Linter) (fixApplied : Bool) : Report :=
  ofParts (linter.enabledWarnings.flatMap (parts style linter.source fixApplied))

end Report

end SourceLint
