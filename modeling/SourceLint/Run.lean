/-
A run of the linter over files, one after another. A file that is not text is left out with a remark.
The warnings of all checks on a file are reported together; if fixes are wanted, the fixed text is
worked out before anything is reported and written after that. The first failure ends the run, and
what was done for the files before stays done.
-/
import SourceLint.FileStore
import SourceLint.Report
import SourceLint.Traced

namespace SourceLint

/-- A check, which may keep something from one file to the next. -/
abbrev Check (State : Type) := State → FileStore → Source → Traced (List Warning) × State

namespace Check

/-- The check that gives warnings on the text alone. -/
def ofWarnings {State : Type} (warnings : Source → Except LintError (List Warning)) : Check State :=
  fun state _ source => (Traced.ofExcept (warnings source), state)

/-- The warnings of checks on a source, those of an earlier check first. After a failure no further
check is made. -/
def runAll {State : Type} : List (Check State) → Check State
  | [], state, _, _ => (pure [], state)
  | check :: rest, state, store, source =>
    let (first, state) := check state store source
    match first.result with
    | .error error => (⟨first.events, .error error⟩, state)
    | .ok warnings =>
      let (others, state) := runAll rest state store source
      (⟨first.events ++ others.events, others.result.map fun more => warnings ++ more⟩, state)

end Check

/-- How files are linted. -/
structure Plan (State : Type) where
  /-- The name of the check, which directives use. -/
  checkName : Text
  checks : List (Check State)
  /-- Fixes are written to the files. -/
  fix : Bool
  /-- How reports are set off. -/
  style : Style

/-- What a run has come to. -/
structure Progress (State : Type) where
  store : FileStore
  state : State
  printed : List Text := []
  events : List Event := []
  /-- A warning that counts was found. -/
  found : Bool := false

namespace Plan

variable {State : Type}

/-- The text of a file, unless the file is binary: a zero byte or bytes that are not UTF-8 make it
so. -/
def textOfBytes? (bytes : List UInt8) : Option Text :=
  if bytes.contains 0 then none else Text.decode? bytes

/-- The text that a source has after the run. -/
def finalText (plan : Plan State) (linter : Linter) : Except LintError Text :=
  if plan.fix then linter.fix else .ok linter.source.content

/-- Reports the warnings on a source, and writes the fixed text if it is not the old one. -/
def report (plan : Plan State) (progress : Progress State) (linter : Linter) (fixed : Text) :
    Progress State × Except LintError Unit :=
  let report := Report.ofLinter plan.style linter plan.fix
  let reported := { progress with printed := progress.printed ++ report.lines }
  match report.failure with
  | some error => (reported, .error error)
  | none =>
    let source := linter.source
    let store :=
      if fixed = source.content then reported.store
      else reported.store.write source.filename (Text.encode fixed)
    ({ reported with store := store, found := reported.found || !linter.counted.isEmpty }, .ok ())

/-- Lints a source. -/
def lintSource (plan : Plan State) (progress : Progress State) (source : Source) :
    Progress State × Except LintError Unit :=
  let (warnings, state) := Check.runAll plan.checks progress.state progress.store source
  let checked := { progress with state := state, events := progress.events ++ warnings.events }
  match warnings.result with
  | .error error => (checked, .error error)
  | .ok warnings =>
    let linter : Linter := ⟨source, warnings⟩
    match plan.finalText linter with
    | .error error => (checked, .error error)
    | .ok fixed => plan.report checked linter fixed

/-- Lints a file. -/
def lintFile (plan : Plan State) (progress : Progress State) (file : Text) :
    Progress State × Except LintError Unit :=
  match progress.store.read file with
  | .error problem => (progress, .error (.file problem))
  | .ok bytes =>
    match textOfBytes? bytes with
    | none =>
      let remark := Event.remarked (LintError.binaryFile file).message
      ({ progress with events := progress.events ++ [remark] }, .ok ())
    | some content => plan.lintSource progress (Source.ofText file content plan.checkName)

/-- Lints files in their order, up to the first failure. -/
def run (plan : Plan State) : Progress State → List Text → Progress State × Except LintError Unit
  | progress, [] => (progress, .ok ())
  | progress, file :: rest =>
    match plan.lintFile progress file with
    | (progress, .error error) => (progress, .error error)
    | (progress, .ok ()) => run plan progress rest

end Plan

/-- The exit status after a run without a failure: one if a warning was found, else zero. -/
def Progress.status {State : Type} (progress : Progress State) : Nat :=
  if progress.found then 1 else 0

end SourceLint
