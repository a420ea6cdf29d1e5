/-
The check that files do not repeat the version of the project. A version in a text is two or three
groups of one or two digits with points between them, and no digit on either side. The version of the
project stands alone in a file of its own, which the check leaves alone.
-/
import SourceLint.FileStore
import SourceLint.Linter

namespace SourceLint.HardcodedVersion

/-- The name of the check, which directives use. -/
def checkName : Text := "verify-hardcoded-version"

/-- A version of the project. -/
structure Version where
  major : Nat
  minor : Nat
  patch : Nat
  deriving DecidableEq, Repr

/-! ### Versions in a text -/

/-- The digit groups of a version as they are written. -/
structure Groups where
  major : Text
  minor : Text
  patch : Option Text
  deriving DecidableEq, Repr

/-- How many units the groups take, with their points. -/
def Groups.length (groups : Groups) : Nat :=
  groups.major.length + 1 + groups.minor.length +
    match groups.patch with
    | some patch => 1 + patch.length
    | none => 0

/-- The digits at the start of a text if there are one or two of them, and what comes after. -/
def group? (text : Text) : Option (Text × Text) :=
  let digits := text.takeWhile CodeUnit.isDigit
  if digits.length = 1 || digits.length = 2 then some (digits, text.drop digits.length) else none

/-- What comes after a point at the start of a text. -/
def afterPoint? : Text → Option Text
  | [] => none
  | unit :: rest => if unit = '.' then some rest else none

/-- The version that a text begins with. A third group of more digits does not belong to it. -/
def Groups.read? (text : Text) : Option Groups := do
  let (major, rest) ← group? text
  let rest ← afterPoint? rest
  let (minor, rest) ← group? rest
  return ⟨major, minor, ((afterPoint? rest).bind group?).map Prod.fst⟩

/-- The groups that are there are those of a version. -/
def Groups.agrees (version : Version) (groups : Groups) : Bool :=
  Text.digitsValue groups.major == version.major &&
    Text.digitsValue groups.minor == version.minor &&
    groups.patch.all fun patch => Text.digitsValue patch == version.patch

/-- A version at its place. -/
structure Occurrence where
  start : Nat
  groups : Groups
  deriving DecidableEq, Repr

namespace Occurrence

/-- The place of a version. -/
def span (occurrence : Occurrence) : Span :=
  ⟨occurrence.start, occurrence.start + occurrence.groups.length⟩

/-- The place of its first two groups. -/
def majorMinorSpan (occurrence : Occurrence) : Span :=
  ⟨occurrence.start,
    occurrence.start + occurrence.groups.major.length + 1 + occurrence.groups.minor.length⟩

/-- The place of its third group. -/
def patchSpan? (occurrence : Occurrence) : Option Span :=
  occurrence.groups.patch.map fun patch =>
    ⟨occurrence.span.stop - patch.length, occurrence.span.stop⟩

end Occurrence

/-- The versions in a text that begins at a position, from the left to the right. The first `skip`
units belong to the version before; `afterDigit` tells whether a digit stands before the text. -/
def occurrencesFrom (position skip : Nat) (afterDigit : Bool) : Text → List Occurrence
  | [] => []
  | unit :: rest =>
    match skip with
    | skip + 1 => occurrencesFrom (position + 1) skip unit.isDigit rest
    | 0 =>
      match if afterDigit then none else Groups.read? (unit :: rest) with
      | some groups =>
        ⟨position, groups⟩ :: occurrencesFrom (position + 1) (groups.length - 1) unit.isDigit rest
      | none => occurrencesFrom (position + 1) 0 unit.isDigit rest

/-- The versions in a text. -/
def occurrences (content : Text) : List Occurrence := occurrencesFrom 0 0 false content

/-- The places where a text holds a given version. -/
def find (content : Text) (version : Version) : List Occurrence :=
  (occurrences content).filter fun occurrence => occurrence.groups.agrees version

/-! ### The version of the project -/

/-- The version that stands alone on a line. -/
def Version.ofFileText? (content : Text) : Option Version := do
  let (major, rest) ← group? content
  let (minor, rest) ← (afterPoint? rest).bind group?
  let (patch, rest) ← (afterPoint? rest).bind group?
  if rest = [0x0A] then
    some ⟨Text.digitsValue major, Text.digitsValue minor, Text.digitsValue patch⟩
  else none

/-- The version in a file. -/
def Version.ofFile (store : FileStore) (file : Text) : Except LintError Version :=
  match store.readText file with
  | .error problem => .error (.configuration (.unreadableVersionFile file problem))
  | .ok content =>
    match Version.ofFileText? content with
    | some version => .ok version
    | none => .error (.configuration (.malformedVersionFile file))

/-! ### The check -/

/-- The warning on a version in a text. -/
def warning (versionFile : Text) (occurrence : Occurrence) : Warning :=
  ⟨occurrence.span, "do not hard-code version, read from " ++ versionFile ++ " file instead", [], []⟩

/-- The warnings on a file, given how the version of the project is read. -/
def check (versionFile : Text) (version : Except LintError Version) (source : Source) :
    Except LintError (List Warning) :=
  if source.filename = versionFile then .ok []
  else version.map fun version => (find source.content version).map (warning versionFile)

end SourceLint.HardcodedVersion
