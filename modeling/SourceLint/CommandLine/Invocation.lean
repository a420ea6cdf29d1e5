/-
What the program is asked for on its command line: a check, the settings of that check, the files,
and whether fixes are to be written to them. There is a command for each check, named like it.
-/
import SourceLint.Check.AlphaSpec
import SourceLint.Check.Codeowners
import SourceLint.Check.CondaYes
import SourceLint.Check.CopyrightInRepository
import SourceLint.Check.HardcodedVersion
import SourceLint.Check.ProjectLicense
import SourceLint.CommandLine.Arguments

namespace SourceLint.CommandLine

/-- A command of the program. -/
inductive Command where
  | codeowners
  | alphaSpec
  | projectLicense
  | hardcodedVersion
  | condaYes
  | copyright
  deriving DecidableEq, Repr

/-! ### Options -/

/-- Writes fixes to the files. -/
def fixOption : OptionSpec := { name := "--fix" }

/-- The project whose teams own files. -/
def projectOption : OptionSpec :=
  { name := "--project-prefix", placeholder := some "prefix", mandatory := true }

/-- Whether the project is being developed or released. -/
def modeOption : OptionSpec :=
  { name := "--mode", placeholder := some "mode", choices := AlphaSpec.Mode.all.map AlphaSpec.Mode.text }

/-- The release that requirements are checked for. -/
def releaseOption : OptionSpec := { name := "--rapids-version", placeholder := some "version" }

/-- The file that names the release. -/
def releaseFileOption : OptionSpec := { name := "--rapids-version-file", placeholder := some "file" }

/-- The file with the table of releases. -/
def tableFileOption : OptionSpec := { name := "--rapids-metadata-file", placeholder := some "file" }

/-- The file with the version of the project. -/
def versionFileOption : OptionSpec := { name := "--version-file", placeholder := some "file" }

/-- Demands SPDX tags of changed files. -/
def spdxOption : OptionSpec := { name := "--spdx" }

/-- Demands SPDX tags of all files. -/
def forceSpdxOption : OptionSpec := { name := "--force-spdx" }

/-- The license that the SPDX tags have to name. -/
def licenseOption : OptionSpec :=
  { name := "--spdx-license-identifier", placeholder := some "identifier" }

/-- The branch for a repository that names none. -/
def mainBranchOption : OptionSpec := { name := "--main-branch", placeholder := some "branch" }

/-- The branch that changes are meant for. -/
def targetBranchOption : OptionSpec := { name := "--target-branch", placeholder := some "branch" }

namespace Command

/-- All commands. -/
def all : List Command :=
  [codeowners, alphaSpec, projectLicense, hardcodedVersion, condaYes, copyright]

/-- The name of a command. -/
def name : Command → Text
  | codeowners => Codeowners.checkName
  | alphaSpec => AlphaSpec.checkName
  | projectLicense => ProjectLicense.checkName
  | hardcodedVersion => HardcodedVersion.checkName
  | condaYes => CondaYes.checkName
  | copyright => Copyright.checkName

/-- The command with a name. -/
def ofName? (name : Text) : Option Command := all.find? fun command => command.name = name

/-- The options of a command. -/
def options (command : Command) : List OptionSpec :=
  fixOption ::
    match command with
    | codeowners => [projectOption]
    | alphaSpec => [modeOption, releaseOption, releaseFileOption, tableFileOption]
    | projectLicense => []
    | hardcodedVersion => [versionFileOption]
    | condaYes => []
    | copyright =>
      [spdxOption, forceSpdxOption, licenseOption, mainBranchOption, targetBranchOption]

end Command

/-! ### Invocations -/

/-- A check with its settings. -/
inductive Job where
  | codeowners (project : Text)
  | alphaSpec (settings : AlphaSpec.Settings)
  | projectLicense
  | hardcodedVersion (versionFile : Text)
  | condaYes
  | copyright (policy : Copyright.Policy) (targetBranch mainBranch : Option Text)

/-- A check that is to be made on files. -/
structure Invocation where
  job : Job
  fix : Bool
  files : List Text

/-- What a command line asks for. -/
inductive Request where
  /-- Says how the program is used. -/
  | help
  /-- Nothing is asked for, which is a fault. -/
  | nothing
  | lint (invocation : Invocation)

/-- The file that versions are read from where no other is named. -/
def defaultVersionFile : Text := "VERSION"

/-- The word for the command that says how the program is used. -/
def helpCommand : Text := "help"

/-- The options for which a command says how it is used. -/
def helpOptions : List Text := ["-h", "--help"]

namespace Job

/-- The settings of the check of dependency files. -/
def alphaSpecSettings (arguments : Arguments) : AlphaSpec.Settings where
  mode := ((arguments.value? modeOption.name).bind AlphaSpec.Mode.ofText?).getD .development
  choice :=
    match arguments.value? releaseOption.name with
    | some version => .named version
    | none => .fromFile ((arguments.value? releaseFileOption.name).getD defaultVersionFile)
  table :=
    match arguments.value? tableFileOption.name with
    | some file => .file file
    | none => .bundled

/-- What a command with its arguments asks for. -/
def ofArguments (command : Command) (arguments : Arguments) : Job :=
  match command with
  | .codeowners => codeowners ((arguments.value? projectOption.name).getD [])
  | .alphaSpec => alphaSpec (alphaSpecSettings arguments)
  | .projectLicense => projectLicense
  | .hardcodedVersion =>
    hardcodedVersion ((arguments.value? versionFileOption.name).getD defaultVersionFile)
  | .condaYes => condaYes
  | .copyright =>
    copyright
      { spdx := arguments.has spdxOption.name
        forceSpdx := arguments.has forceSpdxOption.name
        identifier := (arguments.value? licenseOption.name).getD Copyright.defaultLicense }
      (arguments.value? targetBranchOption.name) (arguments.value? mainBranchOption.name)

end Job

namespace Request

/-- Help is asked for among arguments. -/
def asksHelp (arguments : List Text) : Bool :=
  arguments.any fun argument => helpOptions.contains argument

/-- What a command line asks for after the name of a command, where `operands` stand before its
first option. Of several faults the first found counts: a fault of an option's value, a missing
option, an unknown one, missing files. -/
def ofCommand (command : Command) (operands rest : List Text) : Except UsageError Request := do
  let arguments ← Arguments.read command.options rest
  let files := operands ++ arguments.operands
  if asksHelp arguments.unknown then return help
  else
    match command.options.find? fun option => option.mandatory && !arguments.has option.name with
    | some option => throw (.missingOption option)
    | none =>
      match arguments.unknown, files with
      | argument :: _, _ => throw (.unknownOption argument)
      | [], [] => throw (.missingOperand "file")
      | [], _ :: _ =>
        return lint ⟨Job.ofArguments command arguments, arguments.has fixOption.name, files⟩

/-- What a command line asks for. -/
def ofArguments (commandLine : List Text) : Except UsageError Request := do
  let arguments ← Arguments.read [] commandLine
  match arguments.operands with
  | [] =>
    match arguments.unknown with
    | [] => return nothing
    | argument :: _ =>
      if asksHelp arguments.unknown then return help else throw (.unknownOption argument)
  | name :: operands =>
    match Command.ofName? name with
    | some command => ofCommand command operands arguments.unknown
    | none =>
      if name = helpCommand then
        match operands with
        | [] => return help
        | topic :: _ => return if (Command.ofName? topic).isSome then help else nothing
      else if asksHelp arguments.unknown then return help
      else throw (.unknownCommand name)

end Request

end SourceLint.CommandLine
