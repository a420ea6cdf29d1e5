/-
The check of dependency files that packages of the project admit alpha versions while a release is
developed, and no longer do when it is out. A package is of the project if it has prereleases in the
chosen release; a name with a CUDA number stands for the package without it. The release is looked up
when the first file is checked, and what it says is kept for the files after it. How a text is read as
YAML is no matter of the check, which is given a reader.
-/
import SourceLint.Linter
import SourceLint.PackageLists
import SourceLint.Release.Choice
import SourceLint.Requirement
import SourceLint.Yaml.Node

namespace SourceLint.AlphaSpec

/-- The name of the check, which directives use. -/
def checkName : Text := "verify-alpha-spec"

/-- The specifier that admits alpha versions. -/
def alphaSpecifier : Specifier := ⟨.atLeast, "0.0.0a0"⟩

/-- Whether the project is being developed or released. -/
inductive Mode where
  | development
  | release
  deriving DecidableEq, Repr

/-- The name of a mode. -/
def Mode.text : Mode → Text
  | development => "development"
  | release => "release"

/-- All modes. -/
def Mode.all : List Mode := [.development, .release]

/-- The mode with a name. -/
def Mode.ofText? (text : Text) : Option Mode := all.find? fun mode => mode.text = text

/-- The canonical names of packages that matter to the check. -/
structure PackageNames where
  /-- The packages with prereleases. -/
  prerelease : List Text
  /-- The packages whose names may carry a CUDA number. -/
  cudaNumbered : List Text
  deriving DecidableEq, Repr

/-- The names of a release that matter to the check. -/
def PackageNames.ofRelease (release : Release) : PackageNames :=
  ⟨release.prereleaseNames, release.cudaNumberedNames⟩

/-- The package with a name is one of the project. -/
def PackageNames.covers (names : PackageNames) (name : Text) : Bool :=
  names.prerelease.contains
    (PackageName.canonical (PackageName.withoutCudaNumber names.cudaNumbered name))

/-! ### One requirement -/

/-- The requirement as a mode wants it, if it is not that way yet. -/
def corrected? (mode : Mode) (requirement : Requirement) : Option Requirement :=
  let admitsAlpha := requirement.specifiers.contains alphaSpecifier
  match mode with
  | .development =>
    if admitsAlpha then none
    else some { requirement with specifiers := requirement.specifiers ++ [alphaSpecifier] }
  | .release =>
    if admitsAlpha then
      some { requirement with
        specifiers := requirement.specifiers.filter fun specifier => specifier ≠ alphaSpecifier }
    else none

/-- What is wrong with a requirement in a mode. -/
def complaint (mode : Mode) (name : Text) : Text :=
  match mode with
  | .development => "add alpha spec for RAPIDS package " ++ name
  | .release => "remove alpha spec for RAPIDS package " ++ name

/-- The warning on one entry of a package list. Only texts are requirements; an alias is none, since
the entry it names is checked where it stands. -/
def entryWarning? (mode : Mode) (names : PackageNames) (node : Yaml.Node) : Option Warning := do
  let text ← node.text?
  let span ← node.span?
  let requirement ← Requirement.ofText? text
  if names.covers requirement.name then
    let corrected ← corrected? mode requirement
    some ⟨span, complaint mode requirement.name, [⟨span, node.requote corrected.text⟩], []⟩
  else none

/-- The warnings on a document. -/
def documentWarnings (mode : Mode) (names : PackageNames) (root : Yaml.Node) : List Warning :=
  (packageLists root).flatMap fun packages => packages.items.filterMap (entryWarning? mode names)

/-! ### The check -/

/-- What the check is asked for. -/
structure Settings where
  mode : Mode
  choice : ReleaseChoice
  table : TableSource

/-- What the check keeps from one file to the next. -/
structure State where
  table : Memo ReleaseTable := {}
  names : Memo PackageNames := {}
  deriving DecidableEq, Repr

/-- The names that matter, and what is kept. -/
def recallNames (settings : Settings) (store : FileStore) (state : State) :
    Except LintError PackageNames × State :=
  match state.names.kept with
  | some names => (.ok names, state)
  | none =>
    let (release, table) := settings.choice.release store settings.table state.table
    let (names, memo) := state.names.get (release.map PackageNames.ofRelease)
    (names, ⟨table, memo⟩)

/-- The warnings on a file, and what is kept. The release is looked up before the file is read. -/
def check (parse : Text → Option Yaml.Node) (settings : Settings) (store : FileStore) (state : State)
    (source : Source) : Except LintError (List Warning) × State :=
  let (names, state) := recallNames settings store state
  let warnings := names.bind fun names =>
    match parse source.content with
    | some root => .ok (documentWarnings settings.mode names root)
    | none => .error (.unparsable source.filename .malformedYaml)
  (warnings, state)

end SourceLint.AlphaSpec
