/-
A text under lint, with the warnings that checks have given for it. Warnings in a disabled region do
not count: they are neither shown nor fixed. The fix of a text puts in the replacements of all other
warnings, in one pass from left to right, and fails if two of them overlap.
-/
import SourceLint.Region

namespace SourceLint

/-- A text under lint: the name of its file, its lines, and its regions for the check at hand. -/
structure Source where
  filename : Text
  lines : Lines
  regions : List Region

namespace Source

/-- The source with a given name and text, under a check. -/
def ofText (filename content check : Text) : Source :=
  let lines := Lines.ofText content
  ⟨filename, lines, Region.ofLines lines check⟩

/-- The text of a source. -/
def content (source : Source) : Text := source.lines.content

/-- Whether a warning counts. -/
def isEnabled (source : Source) (warning : Warning) : Bool :=
  Region.isEnabled source.regions warning.span

end Source

/-- A source with the warnings given so far, in the order in which they came. -/
structure Linter where
  source : Source
  warnings : List Warning

namespace Linter

/-- The warnings that count, in the order in which they came. -/
def counted (linter : Linter) : List Warning := linter.warnings.filter linter.source.isEnabled

/-- The warnings that count, by their spans. -/
def enabledWarnings (linter : Linter) : List Warning :=
  linter.counted.mergeSort fun left right => left.span.notAfter right.span

/-- The replacements of the warnings that count, by their spans. -/
def replacements (linter : Linter) : List Replacement :=
  (linter.counted.flatMap Warning.replacements).mergeSort fun left right =>
    left.span.notAfter right.span

/-- The first replacement that reaches beyond the start of the one after it, with that one. -/
def firstClash : List Replacement → Option (Replacement × Replacement)
  | [] => none
  | [_] => none
  | current :: next :: rest =>
    if current.span.stop > next.span.start then some (current, next)
    else firstClash (next :: rest)

/-- The text from a position on, with the given replacements put in. -/
def splice (content : Text) : Nat → List Replacement → Text
  | position, [] => content.drop position
  | position, replacement :: rest =>
    content.slice position replacement.span.start ++ replacement.newText ++
      splice content replacement.span.stop rest

/-- The text with the replacements of all warnings that count. -/
def fix (linter : Linter) : Except LintError Text :=
  match firstClash linter.replacements with
  | some (current, next) => .error (.overlappingReplacements current next)
  | none => .ok (splice linter.source.content 0 linter.replacements)

end Linter

end SourceLint
