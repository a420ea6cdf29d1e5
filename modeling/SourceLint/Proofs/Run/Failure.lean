/-
This file says what linting one file can come to, one case for each way through it, and what a run
over many files makes of it. A file is written last, after all that can fail, so a failure at one
file leaves the files as the run over the files before it left them. A fix that fails does so before
anything is printed.
-/
import SourceLint.Proofs.Linter.Placed
import SourceLint.Run

namespace SourceLint.Plan

variable {State : Type} (plan : Plan State)

/-- The source of a file with a given text. -/
def sourceOf (file content : Text) : Source := Source.ofText file content plan.checkName

/-- The warnings of the plan's checks on a source, at some progress. -/
def checked (progress : Progress State) (source : Source) : Traced (List Warning) × State :=
  Check.runAll plan.checks progress.state progress.store source

/-- The progress after the checks on a source. -/
def afterChecks (progress : Progress State) (source : Source) : Progress State :=
  { progress with
    state := (plan.checked progress source).2
    events := progress.events ++ (plan.checked progress source).1.events }

/-- The store after a source is done: written to if its text has changed. -/
def settle (store : FileStore) (source : Source) (fixed : Text) : FileStore :=
  if fixed = source.content then store else store.write source.filename (Text.encode fixed)

/-- What linting a file can come to. -/
inductive Lints (progress : Progress State) (file : Text) :
    Progress State × Except LintError Unit → Prop
  | unreadable (problem : FileProblem) (unread : progress.store.read file = .error problem) :
    Lints progress file (progress, .error (.file problem))
  | binary (bytes : List UInt8) (reads : progress.store.read file = .ok bytes)
      (binary : textOfBytes? bytes = none) :
    Lints progress file
      ({ progress with
          events := progress.events ++ [.remarked (LintError.binaryFile file).message] }, .ok ())
  | checkFails (bytes : List UInt8) (reads : progress.store.read file = .ok bytes)
      (content : Text) (text : textOfBytes? bytes = some content) (error : LintError)
      (fails : (plan.checked progress (plan.sourceOf file content)).1.result = .error error) :
    Lints progress file (plan.afterChecks progress (plan.sourceOf file content), .error error)
  | fixFails (bytes : List UInt8) (reads : progress.store.read file = .ok bytes)
      (content : Text) (text : textOfBytes? bytes = some content) (warnings : List Warning)
      (checks : (plan.checked progress (plan.sourceOf file content)).1.result = .ok warnings)
      (error : LintError)
      (fails : plan.finalText ⟨plan.sourceOf file content, warnings⟩ = .error error) :
    Lints progress file (plan.afterChecks progress (plan.sourceOf file content), .error error)
  | reportFails (bytes : List UInt8) (reads : progress.store.read file = .ok bytes)
      (content : Text) (text : textOfBytes? bytes = some content) (warnings : List Warning)
      (checks : (plan.checked progress (plan.sourceOf file content)).1.result = .ok warnings)
      (fixed : Text) (fixes : plan.finalText ⟨plan.sourceOf file content, warnings⟩ = .ok fixed)
      (report : Report)
      (reports : Report.ofLinter plan.style ⟨plan.sourceOf file content, warnings⟩ plan.fix = report)
      (error : LintError) (fails : report.failure = some error) :
    Lints progress file
      ({ plan.afterChecks progress (plan.sourceOf file content) with
          printed := progress.printed ++ report.lines }, .error error)
  | done (bytes : List UInt8) (reads : progress.store.read file = .ok bytes)
      (content : Text) (text : textOfBytes? bytes = some content) (warnings : List Warning)
      (checks : (plan.checked progress (plan.sourceOf file content)).1.result = .ok warnings)
      (fixed : Text) (fixes : plan.finalText ⟨plan.sourceOf file content, warnings⟩ = .ok fixed)
      (report : Report)
      (reports : Report.ofLinter plan.style ⟨plan.sourceOf file content, warnings⟩ plan.fix = report)
      (whole : report.failure = none) :
    Lints progress file
      ({ plan.afterChecks progress (plan.sourceOf file content) with
          store := settle progress.store (plan.sourceOf file content) fixed
          printed := progress.printed ++ report.lines
          found := progress.found ||
            !(⟨plan.sourceOf file content, warnings⟩ : Linter).counted.isEmpty }, .ok ())

theorem lintSource_eq (progress : Progress State) (source : Source) :
    plan.lintSource progress source =
      match (plan.checked progress source).1.result with
      | .error error => (plan.afterChecks progress source, .error error)
      | .ok warnings =>
        match plan.finalText ⟨source, warnings⟩ with
        | .error error => (plan.afterChecks progress source, .error error)
        | .ok fixed =>
          plan.report (plan.afterChecks progress source) ⟨source, warnings⟩ fixed := rfl

theorem report_eq_of_failure (progress : Progress State) (linter : Linter) (fixed : Text)
    (error : LintError)
    (fails : (Report.ofLinter plan.style linter plan.fix).failure = some error) :
    plan.report progress linter fixed =
      ({ progress with
          printed := progress.printed ++ (Report.ofLinter plan.style linter plan.fix).lines },
        .error error) := by
  rw [report, fails]

theorem report_eq_of_whole (progress : Progress State) (linter : Linter) (fixed : Text)
    (whole : (Report.ofLinter plan.style linter plan.fix).failure = none) :
    plan.report progress linter fixed =
      ({ progress with
          store := settle progress.store linter.source fixed
          printed := progress.printed ++ (Report.ofLinter plan.style linter plan.fix).lines
          found := progress.found || !linter.counted.isEmpty }, .ok ()) := by
  rw [report, whole]
  rfl

theorem lintFile_of_text (progress : Progress State) (file : Text) (bytes : List UInt8)
    (reads : progress.store.read file = .ok bytes) (content : Text)
    (text : textOfBytes? bytes = some content) :
    plan.lintFile progress file = plan.lintSource progress (plan.sourceOf file content) := by
  simp only [lintFile, reads, text]
  rfl

/-- These are the outcomes of linting a file, and each comes about in its own case only. -/
theorem lints_iff (progress : Progress State) (file : Text)
    (outcome : Progress State × Except LintError Unit) :
    plan.Lints progress file outcome ↔ plan.lintFile progress file = outcome := by
  constructor
  · intro lints
    cases lints with
    | unreadable problem unread => rw [lintFile, unread]
    | binary bytes reads binary => simp only [lintFile, reads, binary]
    | checkFails bytes reads content text error fails =>
      rw [plan.lintFile_of_text progress file bytes reads content text, lintSource_eq, fails]
    | fixFails bytes reads content text warnings checks error fails =>
      rw [plan.lintFile_of_text progress file bytes reads content text, lintSource_eq]
      simp only [checks, fails]
    | reportFails bytes reads content text warnings checks fixed fixes report reports error fails =>
      subst reports
      rw [plan.lintFile_of_text progress file bytes reads content text, lintSource_eq]
      simp only [checks, fixes]
      exact plan.report_eq_of_failure _ _ _ error fails
    | done bytes reads content text warnings checks fixed fixes report reports whole =>
      subst reports
      rw [plan.lintFile_of_text progress file bytes reads content text, lintSource_eq]
      simp only [checks, fixes]
      exact plan.report_eq_of_whole _ _ _ whole
  · rintro rfl
    rw [lintFile]
    split
    case h_1 problem unread => exact .unreadable problem unread
    case h_2 bytes reads =>
      split
      case h_1 binary => exact .binary bytes reads binary
      case h_2 content text =>
        show plan.Lints progress file (plan.lintSource progress (plan.sourceOf file content))
        rw [lintSource_eq]
        split
        case h_1 error fails => exact .checkFails bytes reads content text error fails
        case h_2 warnings checks =>
          split
          case h_1 error fails =>
            exact .fixFails bytes reads content text warnings checks error fails
          case h_2 fixed fixes =>
            cases failure : (Report.ofLinter plan.style
                ⟨plan.sourceOf file content, warnings⟩ plan.fix).failure with
            | some error =>
              rw [plan.report_eq_of_failure _ _ _ error failure]
              exact .reportFails bytes reads content text warnings checks fixed fixes _ rfl error
                failure
            | none =>
              rw [plan.report_eq_of_whole _ _ _ failure]
              exact .done bytes reads content text warnings checks fixed fixes _ rfl failure

/-! ### A file at which a run fails -/

variable {plan} {progress final : Progress State} {file : Text}

/-- A failure at a file leaves the files as they are. -/
theorem Lints.store_eq_of_error {error : LintError}
    (lints : plan.Lints progress file (final, .error error)) : final.store = progress.store := by
  cases lints with
  | unreadable => rfl
  | checkFails => rfl
  | fixFails => rfl
  | reportFails => rfl

/-- If replacements overlap then nothing is printed. A report never fails in that way. -/
theorem Lints.printed_eq_of_overlap {first second : Replacement}
    (lints : plan.Lints progress file (final, .error (.overlappingReplacements first second))) :
    final.printed = progress.printed := by
  cases lints with
  | checkFails => rfl
  | fixFails => rfl
  | reportFails _ _ _ _ _ _ _ _ report reports _ fails =>
    rw [← reports] at fails
    cases Report.isMisplaced_of_failure_ofLinter _ _ _ _ fails

/-! ### Runs -/

variable (plan) (start : Progress State)

theorem run_cons_of_ok (file : Text) (rest : List Text) (next : Progress State)
    (passed : plan.lintFile start file = (next, .ok ())) :
    plan.run start (file :: rest) = plan.run next rest := by
  rw [run, passed]

theorem run_cons_of_error (file : Text) (rest : List Text) (final : Progress State)
    (error : LintError) (failed : plan.lintFile start file = (final, .error error)) :
    plan.run start (file :: rest) = (final, .error error) := by
  rw [run, failed]

/-- A run over more files goes on where the run over the first of them ended. -/
theorem run_append (reached : Progress State) (before after : List Text)
    (done : plan.run start before = (reached, .ok ())) :
    plan.run start (before ++ after) = plan.run reached after := by
  induction before generalizing start with
  | nil =>
    cases done
    rfl
  | cons file rest inductionHypothesis =>
    rw [run] at done
    split at done
    case h_1 => cases done
    case h_2 next passed =>
      rw [List.cons_append, plan.run_cons_of_ok start file _ next passed]
      exact inductionHypothesis next done

/-- A run that fails has a file at which it fails, and is complete on the files before. -/
theorem exists_file_of_run_eq_error (final : Progress State) (files : List Text)
    (error : LintError) (fails : plan.run start files = (final, .error error)) :
    ∃ before file after reached, files = before ++ file :: after ∧
      plan.run start before = (reached, .ok ()) ∧
      plan.lintFile reached file = (final, .error error) := by
  induction files generalizing start with
  | nil => cases fails
  | cons file rest inductionHypothesis =>
    rw [run] at fails
    split at fails
    case h_1 next lint failed =>
      cases fails
      exact ⟨[], file, rest, start, rfl, rfl, failed⟩
    case h_2 next passed =>
      obtain ⟨before, failing, after, reached, whole, done, failed⟩ :=
        inductionHypothesis next fails
      refine ⟨file :: before, failing, after, reached, by rw [whole]; rfl, ?_, failed⟩
      rw [plan.run_cons_of_ok start file before next passed]
      exact done

/-- A run over files stops at one of them with an error. -/
structure StopsAt (files : List Text) (final : Progress State) (error : LintError)
    (before : List Text) (file : Text) (after : List Text) (reached : Progress State) : Prop where
  files_eq : files = before ++ file :: after
  /-- The run over the files before is complete. -/
  complete : plan.run start before = (reached, .ok ())
  fails : plan.lintFile reached file = (final, .error error)
  /-- No file is written after that. -/
  store_eq : final.store = reached.store
  /-- If replacements overlap then nothing is printed after that. -/
  printed_eq : ∀ first second, error = .overlappingReplacements first second →
    final.printed = reached.printed

/-- No file after the one at which a run stops has a part in it. -/
theorem StopsAt.run_eq {start reached final : Progress State} {files before after : List Text}
    {file : Text} {error : LintError}
    (stops : plan.StopsAt start files final error before file after reached)
    (others : List Text) : plan.run start (before ++ file :: others) = (final, .error error) := by
  rw [plan.run_append start reached before _ stops.complete]
  exact plan.run_cons_of_error reached file others final error stops.fails

/-- A run that fails stops at one of its files: all files are as the run over those before it left
them, and nothing is printed for it if its replacements overlap. -/
theorem stopsAt_of_run_eq_error (final : Progress State) (files : List Text) (error : LintError)
    (fails : plan.run start files = (final, .error error)) :
    ∃ before file after reached,
      plan.StopsAt start files final error before file after reached := by
  obtain ⟨before, file, after, reached, whole, done, failed⟩ :=
    plan.exists_file_of_run_eq_error start final files error fails
  have lints := (plan.lints_iff reached file _).mpr failed
  refine ⟨before, file, after, reached, whole, done, failed, lints.store_eq_of_error, ?_⟩
  rintro first second rfl
  exact lints.printed_eq_of_overlap

/-- Fixes that put a new text in the place of the first two and of the last two units. In a text of
four units they touch, in one of three they overlap. -/
def replacesEnds : Plan Unit :=
  { checkName := "check"
    checks := [.ofWarnings fun source =>
      let length := source.content.length
      .ok [⟨⟨0, length⟩, "message", [⟨⟨0, 2⟩, "X"⟩, ⟨⟨length - 2, length⟩, "Y"⟩], []⟩]]
    fix := true
    style := .plain }

/-- A file of four units and one of three. -/
def fourAndThree : Progress Unit :=
  { store := .ofEntries [] [("four", .file [0x61, 0x62, 0x63, 0x64]),
      ("three", .file [0x61, 0x62, 0x63])]
    state := () }

theorem stopsAt_replacesEnds : ∃ final,
    replacesEnds.run fourAndThree [("four" : Text), "three", "four"] =
      (final, .error (.overlappingReplacements ⟨⟨0, 2⟩, "X"⟩ ⟨⟨1, 3⟩, "Y"⟩)) ∧
    ∃ before file after reached,
      replacesEnds.StopsAt fourAndThree [("four" : Text), "three", "four"] final
        (.overlappingReplacements ⟨⟨0, 2⟩, "X"⟩ ⟨⟨1, 3⟩, "Y"⟩) before file after reached := by
  let four : Linter := ⟨replacesEnds.sourceOf "four" "abcd",
    [⟨⟨0, 4⟩, "message", [⟨⟨0, 2⟩, "X"⟩, ⟨⟨2, 4⟩, "Y"⟩], []⟩]⟩
  let three : Linter := ⟨replacesEnds.sourceOf "three" "abc",
    [⟨⟨0, 3⟩, "message", [⟨⟨0, 2⟩, "X"⟩, ⟨⟨1, 3⟩, "Y"⟩], []⟩]⟩
  have fourSorted : four.replacements = [⟨⟨0, 2⟩, "X"⟩, ⟨⟨2, 4⟩, "Y"⟩] :=
    (four.replacements_eq_proposed (by decide +kernel)).trans (by decide +kernel)
  have threeSorted : three.replacements = [⟨⟨0, 2⟩, "X"⟩, ⟨⟨1, 3⟩, "Y"⟩] :=
    (three.replacements_eq_proposed (by decide +kernel)).trans (by decide +kernel)
  have fixes : replacesEnds.finalText four = .ok "XY" := by
    refine (four.fix_eq_ok_iff _).mpr ?_
    rw [fourSorted]
    decide +kernel
  have clash : replacesEnds.finalText three =
      .error (.overlappingReplacements ⟨⟨0, 2⟩, "X"⟩ ⟨⟨1, 3⟩, "Y"⟩) := by
    refine (three.fix_eq_error_iff _ _).mpr ?_
    rw [threeSorted]
    decide +kernel
  have whole : (Report.ofLinter replacesEnds.style four true).failure = none :=
    Linter.failure_ofLinter_of_placed "four" "abcd" _ four.warnings (by decide +kernel) .plain true
  have first := (replacesEnds.lints_iff fourAndThree "four" _).mp
    (.done [0x61, 0x62, 0x63, 0x64] rfl "abcd" rfl four.warnings rfl "XY" fixes _ rfl whole)
  have second (progress : Progress Unit)
      (reads : progress.store.read "three" = .ok [0x61, 0x62, 0x63]) :=
    (replacesEnds.lints_iff progress "three" _).mp
      (.fixFails [0x61, 0x62, 0x63] reads "abc" rfl three.warnings rfl _ clash)
  have fails := (replacesEnds.run_cons_of_ok _ _ _ _ first).trans
    (replacesEnds.run_cons_of_error _ _ [("four" : Text)] _ _ (second _ rfl))
  exact ⟨_, fails, stopsAt_of_run_eq_error _ _ _ _ _ fails⟩

end SourceLint.Plan
