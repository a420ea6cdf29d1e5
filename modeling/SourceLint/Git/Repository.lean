/-
A git repository as the linter sees it: the directory in which git runs, and what git answers to each
list of arguments. A question fails when git cannot be started, and mostly also when git ends with a
status other than zero.
-/
import SourceLint.FilePath
import SourceLint.Traced

namespace SourceLint.Git

/-- What becomes of one call of git. -/
inductive Outcome where
  | notStarted (reason : Text)
  | finished (status : Int) (output complaint : Text)
  deriving DecidableEq, Repr

/-- A repository. -/
structure Repository where
  directory : Text
  outcome : List Text → Outcome

namespace Repository

/-- The output of git, or nothing if its status is not zero. -/
def ask? (repository : Repository) (arguments : List Text) : Traced (Option Text) :=
  ⟨[.askedGit arguments],
    match repository.outcome arguments with
    | .notStarted reason => .error (.git (.notStarted reason) arguments)
    | .finished status output _ => .ok (if status = 0 then some output else none)⟩

/-- The output of git. -/
def ask (repository : Repository) (arguments : List Text) : Traced Text :=
  ⟨[.askedGit arguments],
    match repository.outcome arguments with
    | .notStarted reason => .error (.git (.notStarted reason) arguments)
    | .finished status output complaint =>
      if status = 0 then .ok output else .error (.git (.failed complaint) arguments)⟩

/-- The output of git without white space around it, or nothing if that is empty or git has no
answer. -/
def askWord? (repository : Repository) (arguments : List Text) : Traced (Option Text) := do
  let output ← repository.ask? arguments
  return (output.map Text.trim).filter fun word => !word.isEmpty

/-- The parts of the output between separators, without the empty ones. -/
def askList (repository : Repository) (separator : CodeUnit) (arguments : List Text) :
    Traced (List Text) := do
  let output ← repository.ask arguments
  return (Text.splitAt separator output).filter fun part => !part.isEmpty

/-- The directory at the top of the repository. -/
def topLevel (repository : Repository) : Traced Text := do
  return (← repository.ask ["rev-parse", "--show-toplevel"]).trim

/-- The names of the local branches. -/
def branches (repository : Repository) : Traced (List Text) :=
  repository.askList 0x0A ["for-each-ref", "--format=%(refname:short)", "refs/heads/"]

/-- The names of the remote repositories. -/
def remotes (repository : Repository) : Traced (List Text) := repository.askList 0x0A ["remote"]

/-- The commit that is checked out, if there is one. -/
def head? (repository : Repository) : Traced (Option Text) :=
  repository.askWord? ["rev-parse", "--verify", "--quiet", "HEAD"]

/-- The content of a file in a commit. -/
def fileAt (repository : Repository) (commit path : Text) : Traced Text :=
  repository.ask ["show", commit ++ ":" ++ path]

/-- The name of a file from the top of the repository. -/
def relativeName (repository : Repository) (file : Text) : Traced Text := do
  let path := FilePath.resolve (FilePath.resolve [] repository.directory) file
  let top ← repository.topLevel
  return FilePath.relative (FilePath.resolve [] top) path

end Repository

end SourceLint.Git
