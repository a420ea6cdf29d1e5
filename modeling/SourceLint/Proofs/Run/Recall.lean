/-
This file proves that nobody can tell from its answers what a check remembers. A check that loads
something when it first needs it comes to one state after its first item, whatever the item, and
stays in it: what was loaded is kept there, and what could not be loaded is missing and fails to
load again in the same way. So each answer, a failure too, is the one that a check gives which
begins with this item.
-/
import SourceLint.Check.AlphaSpec
import SourceLint.Check.CopyrightInRepository

namespace SourceLint

/-! ### Items in turn -/

section InTurn

variable {State Item Answer : Type}

/-- The answers to items one after another, each given in the state that the ones before have left,
and the state at the end. -/
def inTurn (step : State → Item → Answer × State) : State → List Item → List Answer × State
  | state, [] => ([], state)
  | state, item :: rest =>
    let (answer, next) := step state item
    let (answers, last) := inTurn step next rest
    (answer :: answers, last)

/-- A step that comes from the start to one state on every item, and does there what it does at the
start, answers to each item as it does at the start. -/
theorem inTurn_of_settles (step : State → Item → Answer × State) (start settled : State)
    (settles : ∀ item, (step start item).2 = settled)
    (stays : ∀ item, step settled item = step start item) (items : List Item) :
    inTurn step start items =
      (items.map fun item => (step start item).1, if items.isEmpty then start else settled) := by
  have later (items : List Item) :
      inTurn step settled items = (items.map fun item => (step start item).1, settled) := by
    induction items with
    | nil => rfl
    | cons item rest inductionHypothesis =>
      rw [inTurn, stays]
      dsimp only
      rw [settles, inductionHypothesis, List.map_cons]
  cases items with
  | nil => rfl
  | cons item rest =>
    rw [inTurn]
    dsimp only
    rw [settles, later, List.map_cons, List.isEmpty_cons]
    rfl

end InTurn

/-! ### Memos -/

namespace Memo

variable {Value Failure : Type}

/-- The memo after a load: it keeps what was loaded, and is empty after a failure. -/
def ofLoad (load : Except Failure Value) : Memo Value := ⟨load.toOption⟩

theorem get_empty (load : Except Failure Value) : Memo.get {} load = (load, ofLoad load) := by
  cases load <;> rfl

/-- A memo that has been filled, or could not be, gives what the load gives. -/
theorem get_ofLoad (load : Except Failure Value) :
    (ofLoad load).get load = (load, ofLoad load) := by
  cases load <;> rfl

end Memo

theorem Traced.result_andThen {Value Next : Type} (traced : Traced Value)
    (next : Value → Traced Next) :
    (traced.andThen next).result = traced.result.bind fun value => (next value).result := by
  rw [Traced.andThen]
  cases traced.result <;> rfl

/-! ### The files that changed -/

namespace Copyright

variable (repository : Git.Repository) (settings : Settings)

/-- What the check comes to on a file, without what is asked and remarked on the way. -/
def verdict (changes : Memo Git.ChangedFiles) (source : Source) :
    Except LintError (List Warning) × Memo Git.ChangedFiles :=
  let (warnings, changes) := checkInRepository repository settings changes source
  (warnings.result, changes)

/-- What is kept of the files that changed once they have been asked for. -/
def settledChanges : Memo Git.ChangedFiles :=
  .ofLoad (loadChanges repository settings.branches).result

/-- The verdict on a file whose changes are known, or could not be told. -/
theorem verdict_eq (changes : Memo Git.ChangedFiles) (source : Source) :
    verdict repository settings changes source =
      ((recallChanges repository settings.branches changes).1.result.bind fun changed =>
          (warningsAmong repository settings changed source).result,
        (recallChanges repository settings.branches changes).2) :=
  Prod.ext (Traced.result_andThen _ _) rfl

theorem verdict_empty (source : Source) :
    verdict repository settings {} source =
      ((loadChanges repository settings.branches).result.bind fun changed =>
          (warningsAmong repository settings changed source).result,
        settledChanges repository settings) :=
  verdict_eq repository settings {} source

/-- Asking again after a failure fails again, and what was kept is what asking gave. -/
theorem verdict_settled (source : Source) :
    verdict repository settings (settledChanges repository settings) source =
      verdict repository settings {} source := by
  rw [verdict_eq, verdict_empty, recallChanges, settledChanges, Memo.ofLoad]
  cases loaded : (loadChanges repository settings.branches).result with
  | ok changed => rfl
  | error error =>
    dsimp only [Except.toOption]
    rw [loaded]

end Copyright

/-! ### The release -/

namespace ReleaseChoice

variable (choice : ReleaseChoice) (store : FileStore) (source : TableSource)

/-- The chosen release, when nothing is kept. -/
def load : Except LintError Release :=
  (choice.resolve store).bind fun version =>
    (source.load store).bind fun releases => releases.find version

/-- What is kept of the table once a release has been asked for. A choice that cannot be settled
needs no table. -/
def settledTable : Memo ReleaseTable :=
  match choice.resolve store with
  | .error _ => {}
  | .ok _ => .ofLoad (source.load store)

theorem release_empty :
    choice.release store source {} =
      (choice.load store source, choice.settledTable store source) := by
  rw [release, load, settledTable]
  cases choice.resolve store with
  | error error => rfl
  | ok version =>
    dsimp only
    rw [Memo.get_empty]
    rfl

theorem release_settled :
    choice.release store source (choice.settledTable store source) =
      (choice.load store source, choice.settledTable store source) := by
  rw [release, load, settledTable]
  cases choice.resolve store with
  | error error => rfl
  | ok version =>
    dsimp only
    rw [Memo.get_ofLoad]
    rfl

end ReleaseChoice

namespace AlphaSpec

variable (settings : Settings) (store : FileStore)

/-- The names that matter, when nothing is kept. -/
def loadNames : Except LintError PackageNames :=
  (settings.choice.load store settings.table).map PackageNames.ofRelease

/-- What is kept once the names have been asked for. If the chosen release is not in the table, the
table is kept without it. -/
def settledState : State :=
  ⟨settings.choice.settledTable store settings.table, .ofLoad (loadNames settings store)⟩

theorem recallNames_empty :
    recallNames settings store {} = (loadNames settings store, settledState settings store) := by
  rw [recallNames]
  dsimp only
  rw [ReleaseChoice.release_empty]
  dsimp only
  rw [Memo.get_empty]
  rfl

theorem recallNames_settled :
    recallNames settings store (settledState settings store) =
      (loadNames settings store, settledState settings store) := by
  rw [recallNames]
  cases loaded : loadNames settings store with
  | ok names =>
    have kept : (settledState settings store).names.kept = some names := by
      rw [settledState, loaded]
      rfl
    rw [kept]
  | error error =>
    have nothing : (settledState settings store).names = {} := by
      rw [settledState, loaded]
      rfl
    have table : (settledState settings store).table =
        settings.choice.settledTable store settings.table := rfl
    rw [nothing, table, ReleaseChoice.release_settled]
    dsimp only
    rw [Memo.get_empty, ← loaded]
    rfl

theorem check_eq (parse : Text → Option Yaml.Node) (state : State) (source : Source) :
    check parse settings store state source =
      ((recallNames settings store state).1.bind fun names =>
          match parse source.content with
          | some root => .ok (documentWarnings settings.mode names root)
          | none => .error (.unparsable source.filename .malformedYaml),
        (recallNames settings store state).2) := rfl

theorem check_settled (parse : Text → Option Yaml.Node) (source : Source) :
    check parse settings store (settledState settings store) source =
      check parse settings store {} source := by
  rw [check_eq, check_eq, recallNames_settled, recallNames_empty]

end AlphaSpec

/-! ### Both checks -/

/-- The answers of a check to files one after another are those of a check that begins with the
file, whatever fails: loading what is kept, or the check of an earlier file. What is kept at the end
is what a load gives, if there was a file at all. -/
theorem inTurn_eq_alone (repository : Git.Repository) (copyright : Copyright.Settings)
    (parse : Text → Option Yaml.Node) (alpha : AlphaSpec.Settings) (store : FileStore)
    (sources : List Source) :
    inTurn (Copyright.verdict repository copyright) {} sources =
        (sources.map fun source => (Copyright.verdict repository copyright {} source).1,
          if sources.isEmpty then {} else Copyright.settledChanges repository copyright) ∧
      inTurn (AlphaSpec.check parse alpha store) {} sources =
        (sources.map fun source => (AlphaSpec.check parse alpha store {} source).1,
          if sources.isEmpty then {} else AlphaSpec.settledState alpha store) := by
  constructor
  · refine inTurn_of_settles _ _ (Copyright.settledChanges repository copyright) ?_
      (Copyright.verdict_settled repository copyright) sources
    exact fun source => congrArg Prod.snd (Copyright.verdict_empty repository copyright source)
  · refine inTurn_of_settles _ _ (AlphaSpec.settledState alpha store) ?_
      (AlphaSpec.check_settled alpha store parse) sources
    exact fun _ => congrArg Prod.snd (AlphaSpec.recallNames_empty alpha store)

end SourceLint
