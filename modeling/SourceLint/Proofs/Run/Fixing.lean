/-
This file compares a run that writes fixes with one that only reports. A complete run changes the
texts among its files and nothing else, each once; so if the files are distinct then every file is
linted as it was at the start, and neither the warnings nor the exit status can depend on what has
been written to the files before it.
-/
import SourceLint.Proofs.Run.Checks
import SourceLint.Proofs.Run.Frame

namespace SourceLint.Plan

variable {State : Type} (plan : Plan State) (find : Text → List Warning)

/-- A file under lint with the warnings that are found on its text. -/
def linterOf (file content : Text) : Linter := ⟨plan.sourceOf file content, find content⟩

/-- A file is text and has a warning that counts. -/
def Warns (store : FileStore) (file : Text) : Prop :=
  ∃ bytes content, store.read file = .ok bytes ∧ textOfBytes? bytes = some content ∧
    (plan.linterOf find file content).enabledWarnings ≠ []

/-- What a file holds after a run, if it held certain bytes before: the same bytes if it is binary,
and the final text if it is text. -/
def Leaves (file : Text) (bytes : List UInt8) (after : FileStore) : Prop :=
  match textOfBytes? bytes with
  | none => after.read file = .ok bytes
  | some content =>
    ∃ fixed, plan.finalText (plan.linterOf find file content) = .ok fixed ∧
      after.read file = .ok (Text.encode fixed)

/-- What a complete run over distinct files does. -/
structure Completes (files : List Text) (start final : Progress State) : Prop where
  locate_eq : ∀ name, final.store.locate name = start.store.locate name
  /-- What is not among the files stays as it is. -/
  frame : ∀ name, start.store.locate name ∉ files.map start.store.locate →
    final.store.read name = start.store.read name
  leaves : ∀ file ∈ files, ∃ bytes, start.store.read file = .ok bytes ∧
    plan.Leaves find file bytes final.store
  found_iff : final.found = true ↔
    start.found = true ∨ ∃ file ∈ files, plan.Warns find start.store file

/-! ### Files as they were -/

variable {plan find}

/-- Whether a file has a warning depends on what it holds. -/
theorem Warns.congr {store other : FileStore} {file : Text}
    (same : other.read file = store.read file) :
    plan.Warns find other file ↔ plan.Warns find store file := by
  rw [Warns, Warns, same]

theorem Leaves.congr {file : Text} {bytes : List UInt8} {after other : FileStore}
    (same : other.read file = after.read file) (leaves : plan.Leaves find file bytes after) :
    plan.Leaves find file bytes other := by
  rw [Leaves] at leaves ⊢
  rwa [same]

theorem isEmpty_counted_eq_false_iff (linter : Linter) :
    (!linter.counted.isEmpty) = true ↔ linter.enabledWarnings ≠ [] := by
  have perm : linter.enabledWarnings.Perm linter.counted := List.mergeSort_perm _ _
  rw [Bool.not_eq_true', List.isEmpty_eq_false_iff, ne_eq, ne_eq, not_iff_not]
  exact ⟨fun empty => (empty ▸ perm).eq_nil, fun empty => (empty ▸ perm).nil_eq.symm⟩

/-! ### One file -/

variable (plan find)

theorem warns_iff_of_text (store : FileStore) (file : Text) (bytes : List UInt8)
    (reads : store.read file = .ok bytes) (content : Text)
    (text : textOfBytes? bytes = some content) :
    plan.Warns find store file ↔ (plan.linterOf find file content).enabledWarnings ≠ [] := by
  constructor
  · rintro ⟨_, _, otherReads, otherText, warns⟩
    cases reads.symm.trans otherReads
    cases text.symm.trans otherText
    exact warns
  · exact fun warns => ⟨bytes, content, reads, text, warns⟩

theorem not_warns_of_binary (store : FileStore) (file : Text) (bytes : List UInt8)
    (reads : store.read file = .ok bytes) (binary : textOfBytes? bytes = none) :
    ¬plan.Warns find store file := by
  rintro ⟨_, _, otherReads, text, _⟩
  cases reads.symm.trans otherReads
  cases binary.symm.trans text

/-- A file that is linted without a failure is a complete run. -/
theorem completes_of_lints (finds : Check.Finds (Check.runAll plan.checks) find)
    (start final : Progress State) (file : Text)
    (lints : plan.Lints start file (final, .ok ())) :
    plan.Completes find [file] start final := by
  have outside := lints.agreesOutside
  cases lints with
  | binary bytes reads binary =>
    refine ⟨outside.locate_eq, outside.read_eq, ?_, ?_⟩
    · rintro _ isFile
      cases List.mem_singleton.mp isFile
      refine ⟨bytes, reads, ?_⟩
      rw [Leaves, binary]
      exact reads
    · have silent := plan.not_warns_of_binary find start.store file bytes reads binary
      simp [silent]
  | done bytes reads content text warnings checks fixed fixes report reports whole =>
    have found : warnings = find content := finds _ _ _ _ checks
    subst found
    refine ⟨outside.locate_eq, outside.read_eq, ?_, ?_⟩
    · rintro _ isFile
      cases List.mem_singleton.mp isFile
      refine ⟨bytes, reads, ?_⟩
      rw [Leaves, text]
      exact ⟨fixed, fixes, plan.read_settle start.store file bytes reads content text fixed⟩
    · have warns := plan.warns_iff_of_text find start.store file bytes reads content text
      rw [Bool.or_eq_true, isEmpty_counted_eq_false_iff]
      simp only [List.mem_singleton, exists_eq_left, warns]
      rfl

/-! ### A run over distinct files -/

theorem completes_nil (start : Progress State) : plan.Completes find [] start start :=
  ⟨fun _ => rfl, fun _ _ => rfl, by simp, by simp⟩

/-- A complete run goes on with files that lie elsewhere. -/
theorem Completes.cons {plan : Plan State} {find : Text → List Warning} {file : Text}
    {rest : List Text} {start next final : Progress State}
    (first : plan.Completes find [file] start next)
    (others : plan.Completes find rest next final)
    (apart : start.store.locate file ∉ rest.map start.store.locate) :
    plan.Completes find (file :: rest) start final := by
  have sameLocate : next.store.locate = start.store.locate := funext first.locate_eq
  -- The files to come are still as they were, and the first one stays as it is now.
  have unread (other : Text) (isOther : other ∈ rest) :
      next.store.read other = start.store.read other := by
    refine first.frame other ?_
    rw [List.map_singleton, List.mem_singleton]
    intro same
    exact apart (List.mem_map.mpr ⟨other, isOther, same⟩)
  have kept : final.store.read file = next.store.read file :=
    others.frame file (by rwa [sameLocate])
  refine ⟨fun name => (others.locate_eq name).trans (first.locate_eq name), ?_, ?_, ?_⟩
  · intro name elsewhere
    rw [List.map_cons, List.mem_cons, not_or] at elsewhere
    rw [others.frame name (by rw [sameLocate]; exact elsewhere.2)]
    exact first.frame name (by simpa using elsewhere.1)
  · intro other isFile
    rcases List.mem_cons.mp isFile with rfl | isOther
    · obtain ⟨bytes, reads, leaves⟩ := first.leaves other List.mem_cons_self
      exact ⟨bytes, reads, leaves.congr kept⟩
    · obtain ⟨bytes, reads, leaves⟩ := others.leaves other isOther
      exact ⟨bytes, (unread other isOther).symm.trans reads, leaves⟩
  · have firstFound := first.found_iff
    simp only [List.mem_singleton, exists_eq_left] at firstFound
    rw [others.found_iff, firstFound, List.exists_mem_cons_iff, or_assoc]
    refine or_congr_right (or_congr_right (exists_congr fun other => ?_))
    refine and_congr_right fun isOther => Warns.congr (unread other isOther)

/-- A run over distinct files that does not fail is complete. -/
theorem completes_of_run (finds : Check.Finds (Check.runAll plan.checks) find)
    (start final : Progress State) (files : List Text)
    (distinct : (files.map start.store.locate).Nodup)
    (passes : plan.run start files = (final, .ok ())) : plan.Completes find files start final := by
  induction files generalizing start with
  | nil =>
    cases passes
    exact plan.completes_nil find _
  | cons file rest inductionHypothesis =>
    rw [run] at passes
    split at passes
    case h_1 => cases passes
    case h_2 next passed =>
      have first := plan.completes_of_lints find finds start next file
        ((plan.lints_iff start file _).mpr passed)
      obtain ⟨apart, restDistinct⟩ := List.nodup_cons.mp distinct
      have sameLocate : next.store.locate = start.store.locate := funext first.locate_eq
      exact first.cons (inductionHypothesis next (by rwa [sameLocate]) passes) apart

/-! ### A run without fixes -/

/-- A file that is linted without fixes stays as it is, as do all others. -/
theorem Lints.store_eq_of_not_fix {plan : Plan State} {start final : Progress State}
    {file : Text} {result : Except LintError Unit} (only : plan.fix = false)
    (lints : plan.Lints start file (final, result)) : final.store = start.store := by
  cases lints with
  | done bytes reads content text warnings checks fixed fixes report reports whole =>
    rw [finalText, only] at fixes
    cases fixes
    exact if_pos rfl
  | _ => rfl

theorem store_eq_of_run (only : plan.fix = false) (start final : Progress State)
    (files : List Text) (result : Except LintError Unit)
    (ends : plan.run start files = (final, result)) : final.store = start.store := by
  induction files generalizing start with
  | nil =>
    cases ends
    rfl
  | cons file rest inductionHypothesis =>
    rw [run] at ends
    split at ends
    case h_1 next error failed =>
      cases ends
      exact ((plan.lints_iff start file _).mpr failed).store_eq_of_not_fix only
    case h_2 next passed =>
      exact (inductionHypothesis next ends).trans
        (((plan.lints_iff start file _).mpr passed).store_eq_of_not_fix only)

/-! ### Both runs -/

theorem status_eq_one_iff (progress : Progress State) :
    progress.status = 1 ↔ progress.found = true := by
  rw [Progress.status]
  cases progress.found <;> simp

/-- The one run over distinct files that only reports and the one that fixes, if both pass, have the
same exit status, which tells whether some text has a warning that counts. The first writes nothing.
The second leaves in each text its fix, and each binary file as it is. -/
theorem fixing_and_reporting (found : Check State → Text → List Warning)
    (finds : ∀ check ∈ plan.checks, check.Finds (found check)) (start : Progress State)
    (fresh : start.found = false) (files : List Text)
    (distinct : (files.map start.store.locate).Nodup) (reported fixed : Progress State)
    (reports : { plan with fix := false }.run start files = (reported, .ok ()))
    (fixes : { plan with fix := true }.run start files = (fixed, .ok ())) :
    let linter := plan.linterOf fun content => plan.checks.flatMap fun check => found check content
    reported.status = fixed.status ∧
      (fixed.status = 1 ↔ ∃ file ∈ files, ∃ bytes content,
        start.store.read file = .ok bytes ∧ textOfBytes? bytes = some content ∧
          (linter file content).enabledWarnings ≠ []) ∧
      reported.store = start.store ∧
      ∀ file ∈ files, ∃ bytes, start.store.read file = .ok bytes ∧
        match textOfBytes? bytes with
        | none => fixed.store.read file = .ok bytes
        | some content => ∃ text, (linter file content).fix = .ok text ∧
          fixed.store.read file = .ok (Text.encode text) := by
  intro linter
  have together := Check.finds_runAll plan.checks found finds
  have reporting := completes_of_run { plan with fix := false } _ together start reported files
    distinct reports
  have fixing := completes_of_run { plan with fix := true } _ together start fixed files
    distinct fixes
  -- Both runs find the same: what they find is said by the files at the start.
  have sameFound : reported.found = fixed.found :=
    Bool.eq_iff_iff.mpr (reporting.found_iff.trans fixing.found_iff.symm)
  refine ⟨?_, ?_, ?_, fixing.leaves⟩
  · rw [Progress.status, Progress.status, sameFound]
  · rw [status_eq_one_iff, fixing.found_iff, fresh]
    simp only [Bool.false_eq_true, false_or]
    rfl
  · exact store_eq_of_run { plan with fix := false } rfl start reported files _ reports

/-- A plan that puts something in the place of the first unit of every text. -/
def replacesFirst : Plan Unit :=
  { checkName := "check"
    checks := [.replacing ⟨0, 1⟩ "X"]
    fix := true
    style := .plain }

/-- A binary file and a text. -/
def binaryAndText : Progress Unit :=
  { store := .ofEntries [] [("binary", .file [0]), ("text", .file [0x61, 0x62])]
    state := () }

theorem fixing_and_reporting_replacesFirst : ∃ reported fixed : Progress Unit,
    { replacesFirst with fix := false }.run binaryAndText [("binary" : Text), "text"] =
      (reported, .ok ()) ∧
    { replacesFirst with fix := true }.run binaryAndText [("binary" : Text), "text"] =
      (fixed, .ok ()) ∧
    reported.status = fixed.status ∧ reported.store = binaryAndText.store ∧
    fixed.store.read "binary" = .ok [0] ∧ fixed.store.read "text" = .ok [0x58, 0x62] := by
  let warnings : List Warning := [⟨⟨0, 1⟩, "message", [⟨⟨0, 1⟩, "X"⟩], []⟩]
  let linter : Linter := ⟨replacesFirst.sourceOf "text" "ab", warnings⟩
  have sorted : linter.replacements = [⟨⟨0, 1⟩, "X"⟩] :=
    (linter.replacements_eq_proposed (by decide +kernel)).trans (by decide +kernel)
  have fixedText : linter.fix = .ok "Xb" := by
    refine (linter.fix_eq_ok_iff _).mpr ?_
    rw [sorted]
    decide +kernel
  have whole (fix : Bool) : (Report.ofLinter replacesFirst.style linter fix).failure = none :=
    Linter.failure_ofLinter_of_placed "text" "ab" _ warnings (by decide +kernel) .plain fix
  have passes (fix : Bool) (text : Text)
      (final : finalText { replacesFirst with fix := fix } linter = .ok text) :
      ∃ reached, { replacesFirst with fix := fix }.run binaryAndText [("binary" : Text), "text"] =
        (reached, .ok ()) := by
    have first := (lints_iff { replacesFirst with fix := fix } binaryAndText "binary" _).mp
      (.binary [0] rfl rfl)
    have second (progress : Progress Unit)
        (reads : progress.store.read "text" = .ok [0x61, 0x62]) :=
      (lints_iff { replacesFirst with fix := fix } progress "text" _).mp
        (.done [0x61, 0x62] reads "ab" rfl warnings rfl text final _ rfl (whole fix))
    exact ⟨_, (run_cons_of_ok _ _ _ _ _ first).trans (run_cons_of_ok _ _ _ [] _ (second _ rfl))⟩
  obtain ⟨reported, reports⟩ := passes false "ab" rfl
  obtain ⟨fixed, fixes⟩ := passes true "Xb" fixedText
  have finds : ∀ check ∈ replacesFirst.checks, check.Finds fun _ => warnings := by
    intro check isCheck
    cases List.mem_singleton.mp isCheck
    rintro _ _ _ _ ⟨⟩
    rfl
  obtain ⟨status, _, store, leaves⟩ :=
    replacesFirst.fixing_and_reporting (fun _ _ => warnings) finds
    binaryAndText rfl ["binary", "text"] (by decide +kernel) reported fixed reports fixes
  obtain ⟨_, ⟨⟩, binaryKept⟩ := leaves "binary" List.mem_cons_self
  obtain ⟨_, ⟨⟩, text, isFix, textFixed⟩ :=
    leaves "text" (List.mem_cons_of_mem _ List.mem_cons_self)
  cases fixedText.symm.trans isFix
  exact ⟨reported, fixed, reports, fixes, status, store, binaryKept, textFixed⟩

end SourceLint.Plan
