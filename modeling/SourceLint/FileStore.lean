/-
The files that a run of the linter sees: a tree of directories and files, and the working directory
in it. A name is walked part by part from the working directory, or from the root if it begins with a
stroke; a part that is empty or a point stays where it is, two points go up, and only a directory
leads further. A file may have come to differ from what it was; one of which nothing is known counts as
modified.
-/
import SourceLint.FilePath
import SourceLint.LintError
import SourceLint.Text.Utf8

namespace SourceLint

/-- How a file differs. A change of its type counts as a modification. -/
inductive ChangeKind where
  | added
  | modified
  | renamed
  | copied
  deriving DecidableEq, Repr

/-- What a path leads to. -/
inductive FileEntry where
  | file (bytes : List UInt8)
  | directory
  deriving DecidableEq, Repr

/-- The entries that are known. The working directory and the directories on the way to an entry
exist without one. -/
structure FileStore where
  directory : FilePath
  entries : List (FilePath × FileEntry)
  deriving DecidableEq, Repr

namespace FileStore

/-- What is at a path. -/
def entryAt? (store : FileStore) (path : FilePath) : Option FileEntry :=
  match store.entries.find? fun entry => entry.1 = path with
  | some entry => some entry.2
  | none =>
    if path.isPrefixOf store.directory || store.entries.any fun entry => path.isPrefixOf entry.1 then
      some .directory
    else none

/-- Walks the parts of a name from a path on. Above the root is the root. -/
def walk (store : FileStore) (name : Text) : FilePath → List Text → Except FileProblem FilePath
  | path, [] => .ok path
  | path, part :: rest =>
    match store.entryAt? path with
    | none => .error (.notFound name)
    | some (.file _) => .error (.notDirectory name)
    | some .directory => walk store name (FilePath.step path part) rest

/-- The path that a name leads to. The empty name leads nowhere. -/
def locate (store : FileStore) (name : Text) : Except FileProblem FilePath :=
  if name.isEmpty then .error (.notFound name)
  else store.walk name (FilePath.origin store.directory name) (Text.splitAt '/' name)

/-- The bytes of a file. -/
def read (store : FileStore) (name : Text) : Except FileProblem (List UInt8) := do
  match store.entryAt? (← store.locate name) with
  | some (.file bytes) => .ok bytes
  | some .directory => .error .isDirectory
  | none => .error (.notFound name)

/-- The text of a file, with the replacement character for what is not UTF-8. -/
def readText (store : FileStore) (name : Text) : Except FileProblem Text :=
  (store.read name).map Text.decodeLenient

/-- The store with new bytes for the file that a name leads to. -/
def write (store : FileStore) (name : Text) (bytes : List UInt8) : FileStore :=
  match store.locate name with
  | .error _ => store
  | .ok path =>
    { store with
      entries := store.entries.map fun entry =>
        if entry.1 = path then (path, .file bytes) else entry }

/-- The store with entries under names. -/
def ofEntries (directory : FilePath) (entries : List (Text × FileEntry)) : FileStore :=
  ⟨directory, entries.map fun (name, entry) => (FilePath.resolve directory name, entry)⟩

end FileStore

end SourceLint
