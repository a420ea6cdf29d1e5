/-
The files that differ between the working directory and the commit from which it departed, with what
each of them was there. Git lists the differences as records: a status, the old path if the file was
renamed or copied, and the path, each ended by a zero unit. Files that git does not track are added.
-/
import SourceLint.FileStore
import SourceLint.Git.Repository

namespace SourceLint.Git

/-- A file in a commit. -/
structure CommittedFile where
  commit : Text
  path : Option Text
  deriving DecidableEq, Repr

/-- A file that differs; an added one has no old file. -/
structure ChangedFile where
  kind : ChangeKind
  old : Option CommittedFile
  deriving DecidableEq, Repr

/-- The files that differ, by their paths. A record that breaks off before its path has none, and
so belongs to no file. -/
structure ChangedFiles where
  files : List (Option Text × ChangedFile) := []
  deriving DecidableEq, Repr

namespace ChangedFiles

/-- The files with one put at a path, in place of what was there. -/
def put (path : Option Text) (file : ChangedFile) :
    List (Option Text × ChangedFile) → List (Option Text × ChangedFile)
  | [] => [(path, file)]
  | (other, old) :: rest =>
    if other = path then (path, file) :: rest else (other, old) :: put path file rest

/-- The files with more of them put in, one after another. -/
def putAll (changed : ChangedFiles) (files : List (Option Text × ChangedFile)) : ChangedFiles :=
  ⟨files.foldl (fun known entry => put entry.1 entry.2 known) changed.files⟩

/-- The file at a path, if it differs. -/
def find? (changed : ChangedFiles) (path : Text) : Option ChangedFile :=
  (changed.files.find? fun entry => entry.1 = some path).map Prod.snd

/-- Files that were added. -/
def added (paths : List Text) : List (Option Text × ChangedFile) :=
  paths.map fun path => (some path, ⟨.added, none⟩)

/-- The file that a record with one path tells of; a deleted file is none. -/
def ofStatus (commit status : Text) (path : Option Text) : List (Option Text × ChangedFile) :=
  if status = Text.ofString "A" then [(path, ⟨.added, none⟩)]
  else if status = Text.ofString "D" then []
  else [(path, ⟨.modified, some ⟨commit, path⟩⟩)]

/-- The files that the fields of records tell of, where the old files are in a commit. The records
end at an empty status. -/
def ofFields (commit : Text) : List Text → List (Option Text × ChangedFile)
  | [] => []
  | status :: rest =>
    let isRenamed := Text.startsWith status "R"
    if status.isEmpty then []
    else if isRenamed || Text.startsWith status "C" then
      let kind : ChangeKind := if isRenamed then .renamed else .copied
      match rest with
      | old :: path :: rest =>
        (some path, ⟨kind, some ⟨commit, some old⟩⟩) :: ofFields commit rest
      | [old] => [(none, ⟨kind, some ⟨commit, some old⟩⟩)]
      | [] => [(none, ⟨kind, some ⟨commit, none⟩⟩)]
    else
      match rest with
      | path :: rest => ofStatus commit status (some path) ++ ofFields commit rest
      | [] => ofStatus commit status none

end ChangedFiles

namespace Repository

/-- The files that differ since the departure from a commit. Without a commit all files count as
added. -/
def changedFiles (repository : Repository) (commit : Option Text) : Traced ChangedFiles := do
  let untracked ← repository.askList 0
    ["ls-files", "--others", "--exclude-standard", "--full-name", "-z", ":/"]
  match commit with
  | none =>
    let tracked ← repository.askList 0 ["ls-files", "--full-name", "-z", ":/"]
    return ChangedFiles.putAll {} (ChangedFiles.added (tracked ++ untracked))
  | some commit =>
    let base := (← repository.ask ["merge-base", commit, "HEAD"]).trim
    let records ← repository.ask
      ["diff", "--name-status", "-z", "--find-renames", "--find-copies", "--find-copies-harder", base]
    return ChangedFiles.putAll {}
      (ChangedFiles.ofFields base (Text.splitAt 0 records) ++ ChangedFiles.added untracked)

end Repository

end SourceLint.Git
