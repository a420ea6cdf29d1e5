/-
The branch that a change is meant for, and the commit that stands for it. A branch that is named
outright counts, whether or not it exists: first by the caller, then by the environment, then in the
configuration of git, then as the main branch. Else it is the release branch with the greatest number.
-/
import SourceLint.Git.Repository
import SourceLint.Rounding

namespace SourceLint.Git

/-- What names a branch outright. An empty name is none. -/
structure BranchSettings where
  /-- The branch that the caller wants. -/
  target : Option Text := none
  /-- The names in the environment, those that count first in front. -/
  environment : List (Option Text) := []
  /-- The branch for a repository that names none. -/
  main : Option Text := none

namespace BranchSettings

/-- A name that is not empty. -/
def given? (name : Option Text) : Option Text := name.filter fun name => !name.isEmpty

/-- The branch that the caller or the environment names. -/
def named? (settings : BranchSettings) : Option Text :=
  (settings.target :: settings.environment).findSome? given?

end BranchSettings

/-- The two numbers of a release branch, as they count when branches are compared. -/
structure ReleaseNumber where
  major : Nat
  minor : Nat
  deriving DecidableEq, Repr

namespace ReleaseNumber

/-- The numbers in the name of a release branch. -/
def ofBranch? (name : Text) : Option ReleaseNumber := do
  let numbers ← Text.after? "branch-" name
  match Text.splitAt '.' numbers with
  | [major, minor] =>
    let isNumber (text : Text) : Bool := !text.isEmpty && text.all CodeUnit.isDigit
    if isNumber major && isNumber minor then
      some ⟨Rounding.leadingBits (Text.digitsValue major),
        Rounding.leadingBits (Text.digitsValue minor)⟩
    else none
  | _ => none

/-- The order of release numbers. -/
def less (left right : ReleaseNumber) : Bool :=
  left.major < right.major || (left.major == right.major && left.minor < right.minor)

end ReleaseNumber

/-- The branch with the greatest release number, the first of them if there are more, where `best`
is the one among those before. -/
def newestRelease? (best : Option (Text × ReleaseNumber)) : List Text → Option Text
  | [] => best.map Prod.fst
  | name :: rest =>
    match ReleaseNumber.ofBranch? name, best with
    | none, _ => newestRelease? best rest
    | some number, none => newestRelease? (some (name, number)) rest
    | some number, some (other, greatest) =>
      newestRelease? (some (if greatest.less number then (name, number) else (other, greatest))) rest

namespace Repository

/-- The branch that changes are meant for, if one can be told. -/
def targetBranch? (repository : Repository) (settings : BranchSettings) : Traced (Option Text) := do
  match settings.named? with
  | some name => return some name
  | none =>
    match ← repository.askWord? ["config", "--get", "rapidsai.baseBranch"] with
    | some name => return some name
    | none =>
      match BranchSettings.given? settings.main with
      | some name => return some name
      | none => return newestRelease? none (← repository.branches)

/-- The commit on a line of references, if the line is about one of the given ones. -/
def commitOfLine? (references : List Text) (line : Text) : Option Text :=
  match Text.splitAt ' ' line with
  | commit :: reference :: _ =>
    if !commit.isEmpty && !reference.isEmpty && references.contains reference then some commit
    else none
  | _ => none

/-- The newest commit among a branch, the branch it follows, and the branches of its name in the
remote repositories; where there is none, and without a branch, the commit that is checked out. -/
def upstreamCommit? (repository : Repository) (branch : Option Text) : Traced (Option Text) := do
  let head ← repository.head?
  match branch with
  | none => return head
  | some branch =>
    let remotes ← repository.remotes
    let followed ←
      repository.askWord? ["rev-parse", "--symbolic-full-name", branch ++ "@\x7bupstream\x7d"]
    let references : List Text :=
      ("refs/heads/" ++ branch) ::
        (remotes.map fun remote => "refs/remotes/" ++ remote ++ "/" ++ branch) ++ followed.toList
    let output ← repository.ask
      ["for-each-ref", "--sort=-committerdate", "--format=%(objectname) %(refname)", "refs/heads/",
        "refs/remotes/"]
    return ((Text.splitAt 0x0A output).findSome? (commitOfLine? references)).orElse fun _ => head

end Repository

end SourceLint.Git
