/-
The program: from its arguments and surroundings to what it prints, the files it writes and its exit
status. The status is zero if no warning counts, one if a warning does or the command line is wrong,
and two if the run fails.
-/
import SourceLint.CommandLine.Invocation
import SourceLint.Run

namespace SourceLint.CommandLine

variable {Scalar : Type}

/-- What the program finds when it starts. -/
structure Surroundings (Scalar : Type) where
  store : FileStore
  /-- Reads a text as TOML. -/
  parseToml : Text → Option (Toml.Table Scalar)
  /-- Reads a text as YAML. -/
  parseYaml : Text → Option Yaml.Node
  /-- How reports are set off. -/
  style : Style
  repository : Git.Repository
  /-- The branches that the environment names, those that count first in front. -/
  branches : List (Option Text)
  year : Nat

/-- What is left when files have been linted. -/
structure Outcome where
  store : FileStore
  printed : List Text
  events : List Event
  result : Except LintError Nat

/-- Lints files by a plan. -/
def lint {State : Type} (plan : Plan State) (store : FileStore) (state : State)
    (files : List Text) : Outcome :=
  let (progress, result) := plan.run { store := store, state := state } files
  ⟨progress.store, progress.printed, progress.events, result.map fun _ => progress.status⟩

/-- Lints files by a check that keeps nothing. -/
def lintWith (command : Command) (fix : Bool) (surroundings : Surroundings Scalar) (files : List Text)
    (check : Check Unit) : Outcome :=
  lint ⟨command.name, [check], fix, surroundings.style⟩ surroundings.store () files

/-- Carries out an invocation. -/
def Invocation.run (invocation : Invocation) (surroundings : Surroundings Scalar) : Outcome :=
  let store := surroundings.store
  let fix := invocation.fix
  let files := invocation.files
  match invocation.job with
  | .codeowners project =>
    lintWith .codeowners fix surroundings files <| Check.ofWarnings fun source =>
      .ok (Codeowners.check project Codeowners.standardRequirements source)
  | .alphaSpec settings =>
    let check : Check AlphaSpec.State := fun state store source =>
      let (warnings, state) := AlphaSpec.check surroundings.parseYaml settings store state source
      (Traced.ofExcept warnings, state)
    lint ⟨Command.alphaSpec.name, [check], fix, surroundings.style⟩ store {} files
  | .projectLicense =>
    lintWith .projectLicense fix surroundings files <|
      Check.ofWarnings (ProjectLicense.check surroundings.parseToml)
  | .hardcodedVersion versionFile =>
    lintWith .hardcodedVersion fix surroundings files fun state store source =>
      let version := HardcodedVersion.Version.ofFile store versionFile
      (Traced.ofExcept (HardcodedVersion.check versionFile version source), state)
  | .condaYes => lintWith .condaYes fix surroundings files (Check.ofWarnings CondaYes.check)
  | .copyright policy targetBranch mainBranch =>
    let settings : Copyright.Settings :=
      ⟨policy, ⟨targetBranch, surroundings.branches, mainBranch⟩, surroundings.year⟩
    let check : Check (Memo Git.ChangedFiles) := fun state _ source =>
      Copyright.checkInRepository surroundings.repository settings state source
    lint ⟨Command.copyright.name, [check], fix, surroundings.style⟩ store {} files

/-- The exit status after a failure. -/
def failureStatus : Nat := 2

/-- What the program leaves behind. -/
structure Output where
  status : Nat
  /-- The lines on standard output. -/
  printed : List Text
  /-- The lines on standard error. -/
  complaints : List Text
  events : List Event
  store : FileStore
  /-- What ended the run. -/
  failure : Option LintError := none

/-- How the program is used. -/
def usage : List Text :=
  let heading : List Text :=
    ["Usage: rapids-pre-commit-hooks <command> [options] <file...>", "Commands:"]
  let indent : Text := "  "
  heading ++ Command.all.map fun command => indent ++ command.name

/-- What the program leaves behind after linting. -/
def Output.ofOutcome (outcome : Outcome) : Output :=
  let remarks := outcome.events.filterMap Event.remark?
  match outcome.result with
  | .ok status => ⟨status, outcome.printed, remarks, outcome.events, outcome.store, none⟩
  | .error error =>
    ⟨failureStatus, outcome.printed, remarks ++ [error.report.describe], outcome.events,
      outcome.store, some error⟩

/-- Runs the program. -/
def run (arguments : List Text) (surroundings : Surroundings Scalar) : Output :=
  let store := surroundings.store
  match Request.ofArguments arguments with
  | .error error => ⟨1, [], [error.message], [], store, none⟩
  | .ok .help => ⟨0, usage, [], [], store, none⟩
  | .ok .nothing => ⟨1, [], usage, [], store, none⟩
  | .ok (.lint invocation) => Output.ofOutcome (invocation.run surroundings)

end SourceLint.CommandLine
