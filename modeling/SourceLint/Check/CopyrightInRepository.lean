/-
The check of copyright headers for files in a git repository. The files that changed since the branch
they are meant for are asked for when the first file is checked and kept for the files after it; if
that fails the next file asks again. Files outside the repository are not checked, and files that did
not change only if all files have to have SPDX tags.
-/
import SourceLint.Check.Copyright
import SourceLint.Git.Changes
import SourceLint.Git.TargetBranch

namespace SourceLint.Copyright

open Git (Repository BranchSettings ChangedFiles)

/-- What the check is asked for. -/
structure Settings where
  policy : Policy
  branches : BranchSettings
  /-- The current year. -/
  year : Nat

/-- The remark that no branch is known. -/
def unknownBranchRemark : Text :=
  "Could not determine target branch. Try setting the TARGET_BRANCH environment variable, " ++
    "or setting the rapidsai.baseBranch configuration option."

/-- The remark on a file outside the repository. -/
def outsideRemark (file : Text) : Text :=
  "File \"" ++ file ++ "\" is outside of the repository. Not running linter on it."

/-- The files that changed. -/
def loadChanges (repository : Repository) (branches : BranchSettings) : Traced ChangedFiles := do
  let branch ← repository.targetBranch? branches
  if branch.isNone then Traced.remark unknownBranchRemark
  repository.changedFiles (← repository.upstreamCommit? branch)

/-- The files that changed, and what is kept of them. -/
def recallChanges (repository : Repository) (branches : BranchSettings)
    (changes : Memo ChangedFiles) : Traced ChangedFiles × Memo ChangedFiles :=
  match changes.kept with
  | some changed => (pure changed, changes)
  | none =>
    let changed := loadChanges repository branches
    (changed, ⟨changed.result.toOption⟩)

/-- A path from the top of the repository leads out of it. -/
def isOutside (path : Text) : Bool :=
  path = FilePath.parent || Text.startsWith path (FilePath.parent ++ "/")

/-- The warnings on a file, given the files that changed. -/
def warningsAmong (repository : Repository) (settings : Settings) (changed : ChangedFiles)
    (source : Source) : Traced (List Warning) := do
  let path ← repository.relativeName source.filename
  let checkAgainst (change : Change) : Traced (List Warning) :=
    Traced.ofExcept (check settings.policy settings.year change source)
  if isOutside path then
    Traced.remark (outsideRemark source.filename)
    return []
  else
    match changed.find? path with
    | none =>
      if settings.policy.forceSpdx then
        checkAgainst ⟨.modified, some path, some source.content⟩
      else return []
    | some file =>
      match file.old with
      | none => checkAgainst ⟨file.kind, none, none⟩
      | some old =>
        let oldContent ← repository.fileAt old.commit (old.path.getD [])
        checkAgainst ⟨file.kind, old.path, some oldContent⟩

/-- The warnings on a file, and what is kept of the files that changed. -/
def checkInRepository (repository : Repository) (settings : Settings)
    (changes : Memo ChangedFiles) (source : Source) :
    Traced (List Warning) × Memo ChangedFiles :=
  let (changed, changes) := recallChanges repository settings.branches changes
  (changed.andThen fun changed => warningsAmong repository settings changed source, changes)

end SourceLint.Copyright
