/-
The ways in which linting fails, one constructor for each cause, and the wording of each in one
place. A failure of this program has a code; a failure that the file system or a faulty table
raises has none.
-/
import SourceLint.Warning
import SourceLint.Text.Blank

namespace SourceLint

/-- Why a file could not be read. -/
inductive FileProblem where
  | notFound (name : Text)
  | isDirectory
  | notDirectory (name : Text)
  deriving DecidableEq, Repr

/-- What is wrong with an option, a version file or the release metadata. -/
inductive ConfigurationProblem where
  | unreadableVersionFile (file : Text) (cause : FileProblem)
  | malformedVersionFile (file : Text)
  | invalidReleaseVersion (file content : Text)
  | unreadableMetadata (file : Text) (cause : FileProblem)
  | invalidJson (file : Text)
  | missingVersionsTable
  | invalidVersionEntry (version : Text)
  | invalidPackageEntry (package : Text)
  | unknownRelease (version : Text)
  deriving DecidableEq, Repr

/-- Why a linted file was not understood. The readers of whole documents name no place, so only an
open quote has a detail of its own. -/
inductive ParseProblem where
  | unterminatedQuote
  | malformedYaml
  | malformedToml
  deriving DecidableEq, Repr

/-- Why git gave no answer. -/
inductive GitProblem where
  | notStarted (reason : Text)
  | failed (complaint : Text)
  deriving DecidableEq, Repr

/-- A failure of the linter. -/
inductive LintError where
  /-- The position is before the start or past the end of the text. -/
  | positionOutside (position : Int)
  /-- The position is between the two units of a line separator. -/
  | positionInSeparator (position : Int)
  | overlappingReplacements (first second : Replacement)
  | binaryFile (file : Text)
  | configuration (problem : ConfigurationProblem)
  | unparsable (file : Text) (problem : ParseProblem)
  | git (problem : GitProblem) (arguments : List Text)
  | file (problem : FileProblem)
  /-- The license identifier is a word that the table of license texts keeps for itself, so that
  the entry found under it is no list of lines. -/
  | reservedIdentifier (identifier : Text)
  /-- No range is left for a position of the text. -/
  | rangesExhausted
  deriving DecidableEq, Repr

/-- A failure as it is shown: the kind of failure, the code that this program's own failures carry,
the message, and the message of the failure behind it. -/
structure FailureReport where
  kind : Option Text
  code : Option Text
  message : Text
  cause : Option Text := none
  deriving DecidableEq, Repr

namespace FileProblem

/-- The wording of a file problem. -/
def message : FileProblem → Text
  | notFound name => "ENOENT: no such file or directory, open '" ++ name ++ "'"
  | isDirectory => "EISDIR: illegal operation on a directory, read"
  | notDirectory name => "ENOTDIR: not a directory, open '" ++ name ++ "'"

end FileProblem

namespace ConfigurationProblem

/-- The wording of a configuration problem. -/
def message : ConfigurationProblem → Text
  | unreadableVersionFile file _ => "cannot read version file " ++ file
  | malformedVersionFile file =>
    "version file " ++ file ++
      " must contain exactly one MAJOR.MINOR.PATCH version followed by a newline"
  | invalidReleaseVersion file content => "invalid version in " ++ file ++ ": " ++ content
  | unreadableMetadata file _ => "cannot read release metadata " ++ file
  | invalidJson file => "invalid JSON in " ++ file
  | missingVersionsTable => "invalid release metadata: expected a versions table"
  | invalidVersionEntry version => "invalid release metadata for version " ++ version
  | invalidPackageEntry package => "invalid metadata for package " ++ package
  | unknownRelease version => "no release metadata for version " ++ version

/-- The message of the failure behind the problem, when there is one. -/
def cause : ConfigurationProblem → Option Text
  | unreadableVersionFile _ problem => some problem.message
  | unreadableMetadata _ problem => some problem.message
  | invalidJson _ => some "not a JSON document"
  | _ => none

end ConfigurationProblem

namespace ParseProblem

/-- The detail that follows the name of the file. -/
def detail : ParseProblem → Text
  | unterminatedQuote => "unterminated quote"
  | malformedYaml => ""
  | malformedToml => ""

/-- The message for a file that was not understood. -/
def messageFor (file detail : Text) : Text := "Failed to parse " ++ file ++ ": " ++ detail

end ParseProblem

namespace GitProblem

/-- What git said, or the call itself when git said nothing. -/
def message (arguments : List Text) : GitProblem → Text
  | notStarted reason => "failed to run git: " ++ reason
  | failed complaint =>
    let detail := complaint.trim
    if detail.isEmpty then "git " ++ Text.join " " arguments ++ " failed" else detail

end GitProblem

/-- The message for a file that is not text. -/
def binaryFileMessage (file : Text) : Text :=
  "Refusing to run text linter on binary file " ++ file ++ "."

namespace LintError

/-- The message of a failure. -/
def message : LintError → Text
  | positionOutside position => "Position " ++ Text.ofInt position ++ " is not in the string"
  | positionInSeparator position =>
    "Position " ++ Text.ofInt position ++ " is inside a line separator"
  | overlappingReplacements first second =>
    first.describe ++ " overlaps with " ++ second.describe
  | binaryFile name => binaryFileMessage name
  | configuration problem => problem.message
  | unparsable name problem => ParseProblem.messageFor name problem.detail
  | git problem arguments => problem.message arguments
  | file problem => problem.message
  | reservedIdentifier _ => "text is not iterable"
  | rangesExhausted => "Cannot read properties of undefined (reading 'pos')"

/-- The kind of failure, by name. -/
def kind : LintError → Text
  | positionOutside _ => "PositionOutOfRangeError"
  | positionInSeparator _ => "PositionOutOfRangeError"
  | overlappingReplacements _ _ => "OverlappingReplacementsError"
  | binaryFile _ => "BinaryFileError"
  | configuration _ => "ConfigurationError"
  | unparsable _ _ => "SourceParseError"
  | git _ _ => "GitError"
  | file _ => "Error"
  | reservedIdentifier _ => "TypeError"
  | rangesExhausted => "TypeError"

/-- The code of this program's own failures. -/
def code : LintError → Option Text
  | positionOutside _ => some "POSITION_OUT_OF_RANGE"
  | positionInSeparator _ => some "POSITION_OUT_OF_RANGE"
  | overlappingReplacements _ _ => some "OVERLAPPING_REPLACEMENTS"
  | binaryFile _ => some "BINARY_FILE"
  | configuration _ => some "CONFIGURATION_ERROR"
  | unparsable _ _ => some "SOURCE_PARSE_ERROR"
  | git _ _ => some "GIT_ERROR"
  | file _ => none
  | reservedIdentifier _ => none
  | rangesExhausted => none

/-- The message of the failure behind a failure. -/
def cause : LintError → Option Text
  | configuration problem => problem.cause
  | _ => none

/-- A failure as it is shown. -/
def report (error : LintError) : FailureReport :=
  ⟨some error.kind, error.code, error.message, error.cause⟩

end LintError

/-- The lines that tell a user of a failure. Only this program's own failures name their cause. -/
def FailureReport.describe (report : FailureReport) : Text :=
  "Error: " ++ report.message ++
    match report.code, report.cause with
    | some _, some cause => "\n  Cause: " ++ cause
    | _, _ => []

end SourceLint
