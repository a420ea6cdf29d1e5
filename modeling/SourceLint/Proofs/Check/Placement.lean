/-
This file brings together what is known of the checks that look at the text of a file: whatever
their options are and whichever directives the text has, all that they find can be fixed and
reported. For the license of a project this holds whoever reads the file as TOML.
-/
import SourceLint.Proofs.Check.Codeowners
import SourceLint.Proofs.Check.CondaYes
import SourceLint.Proofs.Check.Copyright
import SourceLint.Proofs.Check.HardcodedVersion
import SourceLint.Proofs.Check.ProjectLicense
import SourceLint.Proofs.Region.Touching

namespace SourceLint

/-- A check of the text of a file, with its options. -/
inductive ContentCheck where
  | codeowners (project : Text) (requirements : List Codeowners.Requirement)
  | projectLicense
  | hardcodedVersion (versionFile : Text) (version : Except LintError HardcodedVersion.Version)
  | condaYes
  | copyright (policy : Copyright.Policy) (year : Nat) (change : Copyright.Change)

namespace ContentCheck

/-- The warnings that a check gives on a source, given who reads TOML. -/
def run {Scalar : Type} (parse : Text → Option (Toml.Table Scalar)) :
    ContentCheck → Source → Except LintError (List Warning)
  | codeowners project requirements, source => .ok (Codeowners.check project requirements source)
  | projectLicense, source => ProjectLicense.check parse source
  | hardcodedVersion versionFile version, source =>
    HardcodedVersion.check versionFile version source
  | condaYes, source => CondaYes.check source
  | copyright policy year change, source => Copyright.check policy year change source

/-- All checks but the one of licenses are sound without a reader of TOML. -/
theorem sound_run_of_ne {Scalar : Type} {parse : Text → Option (Toml.Table Scalar)}
    {check : ContentCheck} (notLicense : check ≠ projectLicense) (filename content : Text)
    (regions : List Region) (warnings : List Warning)
    (runs : check.run parse ⟨filename, Lines.ofText content, regions⟩ = .ok warnings) :
    Sound content warnings := by
  cases check with
  | codeowners project requirements =>
    cases runs
    exact Codeowners.sound_check content project requirements filename regions
  | projectLicense => exact absurd rfl notLicense
  | hardcodedVersion versionFile version =>
    exact HardcodedVersion.sound_check versionFile version
      ⟨filename, Lines.ofText content, regions⟩ warnings runs
  | condaYes =>
    exact CondaYes.sound_check ⟨filename, Lines.ofText content, regions⟩ warnings runs
  | copyright policy year change =>
    exact Copyright.sound_check policy year change filename content regions warnings runs

variable {dialect : Toml.Dialect} {parse : Text → Option (Toml.Table dialect.Scalar)}

/-- All that a check finds has its place in the text, no two of its replacements overlap, and so it
can be fixed and reported, whatever the options and the directives are. -/
theorem fix_report_of_run (reads : Toml.ReadsToml dialect parse) (check : ContentCheck)
    (filename content : Text) (regions : List Region) (warnings : List Warning)
    (runs : check.run parse ⟨filename, Lines.ofText content, regions⟩ = .ok warnings) :
    ((∀ warning ∈ warnings, ∀ span ∈ warning.spans, span.PlacedIn content) ∧
      Replacement.Apart (warnings.flatMap Warning.replacements)) ∧
    (∃ fixed, (⟨⟨filename, Lines.ofText content, regions⟩, warnings⟩ : Linter).fix = .ok fixed) ∧
    ∀ style fixApplied,
      (Report.ofLinter style ⟨⟨filename, Lines.ofText content, regions⟩, warnings⟩
        fixApplied).failure = none := by
  have sound : Sound content warnings := by
    by_cases isLicense : check = projectLicense
    · subst isLicense
      have sound := ProjectLicense.sound_check reads ⟨filename, Lines.ofText content, regions⟩
        warnings runs
      rwa [Source.content, Lines.content_ofText] at sound
    · exact sound_run_of_ne isLicense filename content regions warnings runs
  exact ⟨⟨sound.placed, sound.apart⟩,
    Linter.fix_report_of_sound filename content regions warnings sound⟩

/-- A project file with a license that is refused, whose lines end with two units. -/
def pairedLicense : Toml.Written.Document Toml.truthValues :=
  .more (.ofItem (.ofHeader false (.ofName .project))) .pair
    (.more (.ofItem (.pair (.ofValue (.ofName .license) (.ofText "GPL" (by decide))))) .pair
      (.last .empty))

example : pairedLicense.source = "[project]\r\nlicense = \"GPL\"\r\n" := by decide +kernel

/-- The warning on the license of such a file can be fixed and reported. -/
theorem fix_report_of_run_pairedLicense :
    let parse := Toml.readerOf Toml.truthValues
    let source := Source.ofText "pyproject.toml" pairedLicense.source ProjectLicense.checkName
    let warning : Warning := ⟨⟨21, 26⟩, "license should be \"Apache 2.0\"", [], []⟩
    Toml.ReadsToml Toml.truthValues parse ∧ projectLicense.run parse source = .ok [warning] ∧
      warning.span.PlacedIn pairedLicense.source ∧
      (∃ fixed, (⟨source, [warning]⟩ : Linter).fix = .ok fixed) ∧
      ∀ style fixApplied, (Report.ofLinter style ⟨source, [warning]⟩ fixApplied).failure = none := by
  intro parse source warning
  have reads : Toml.ReadsToml Toml.truthValues parse := Toml.readsToml_readerOf _
  have parses : parse pairedLicense.source = some [(("project" : Text), .table
      [(("license" : Text), .text "GPL")])] := (Toml.readerOf_source _).trans rfl
  have warns : ProjectLicense.wrongWarning (Toml.Layout.ofText pairedLicense.source) =
      some warning := by decide +kernel
  have runs : projectLicense.run parse source = .ok [warning] := by
    rw [run, ProjectLicense.check]
    simp only [source, Source.content, Source.ofText, Lines.content_ofText, parses, warns]
    rfl
  obtain ⟨⟨placed, -⟩, fixes, reports⟩ :=
    fix_report_of_run reads projectLicense _ pairedLicense.source _ _ runs
  exact ⟨reads, runs, placed warning List.mem_cons_self _ List.mem_cons_self, fixes, reports⟩

end ContentCheck

end SourceLint
