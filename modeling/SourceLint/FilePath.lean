/-
Paths from the root of the file system, as lists of their parts, and the names that are written for
them. In a name empty parts and points do not count, two points take the part before them away, and
above the root is the root.
-/
import SourceLint.Text

namespace SourceLint

/-- The parts of a path from the root. -/
abbrev FilePath := List Text

namespace FilePath

/-- The part of a name that stays where it is. -/
def here : Text := "."

/-- The part of a name that leads to the directory above. -/
def parent : Text := ".."

/-- A path after one more part of a name. -/
def step (path : FilePath) (part : Text) : FilePath :=
  if part.isEmpty || part = here then path
  else if part = parent then path.dropLast
  else path ++ [part]

/-- Where a name begins: at the root if it begins with a stroke, else in the given directory. -/
def origin (directory : FilePath) (name : Text) : FilePath :=
  if Text.startsWith name "/" then [] else directory

/-- The path that a name stands for, whatever is there. -/
def resolve (directory : FilePath) (name : Text) : FilePath :=
  (Text.splitAt '/' name).foldl step (origin directory name)

/-- The parts of a name for a path in a directory: up from the directory to what the two share, and
down from there. -/
def relativeParts : FilePath → FilePath → List Text
  | [], path => path
  | directory, [] => directory.map fun _ => parent
  | next :: directory, part :: path =>
    if next = part then relativeParts directory path
    else (next :: directory).map (fun _ => parent) ++ part :: path

/-- A name for a path in a directory. -/
def relative (directory path : FilePath) : Text := Text.join "/" (relativeParts directory path)

end FilePath

end SourceLint
