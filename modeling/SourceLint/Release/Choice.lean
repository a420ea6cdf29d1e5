/-
Where the table of releases comes from, and which release is meant. The table is the bundled one or
one from a file; the release is named outright or in a version file, whose text begins with two
numbers and a point between them.
-/
import SourceLint.FileStore
import SourceLint.Release.Bundled
import SourceLint.Traced

namespace SourceLint

/-- The place of a table of releases. -/
inductive TableSource where
  | bundled
  | file (name : Text)
  deriving DecidableEq, Repr

/-- The table at a place. -/
def TableSource.load (store : FileStore) : TableSource → Except LintError ReleaseTable
  | bundled => .ok ReleaseTable.bundled
  | file name =>
    match store.readText name with
    | .error problem => .error (.configuration (.unreadableMetadata name problem))
    | .ok content =>
      match Json.parse? content with
      | none => .error (.configuration (.invalidJson name))
      | some value => ReleaseTable.ofJson value

/-- How a release is chosen. -/
inductive ReleaseChoice where
  | named (version : Text)
  | fromFile (name : Text)
  deriving DecidableEq, Repr

namespace ReleaseChoice

/-- The two numbers and the point at the start of a text. -/
def leadingVersion? (text : Text) : Option Text :=
  let major := text.takeWhile CodeUnit.isDigit
  match text.dropWhile CodeUnit.isDigit with
  | point :: rest =>
    let minor := rest.takeWhile CodeUnit.isDigit
    if major.isEmpty || point != '.' || minor.isEmpty then none else some (major ++ "." ++ minor)
  | [] => none

/-- The version of the chosen release. -/
def resolve (store : FileStore) : ReleaseChoice → Except LintError Text
  | named version => .ok version
  | fromFile name =>
    match store.readText name with
    | .error problem => .error (.configuration (.unreadableVersionFile name problem))
    | .ok content =>
      match leadingVersion? content.trim with
      | some version => .ok version
      | none => .error (.configuration (.invalidReleaseVersion name content.trim))

/-- The chosen release. The choice is settled before the table is needed. -/
def release (choice : ReleaseChoice) (store : FileStore) (source : TableSource)
    (table : Memo ReleaseTable) : Except LintError Release × Memo ReleaseTable :=
  match choice.resolve store with
  | .error error => (.error error, table)
  | .ok version =>
    let (loaded, table) := table.get (source.load store)
    (loaded.bind fun releases => releases.find version, table)

end ReleaseChoice

end SourceLint
