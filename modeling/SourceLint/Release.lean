/-
Releases and their packages. A table of releases tells for each release which packages belong to it,
which of these have prereleases, and which are also built under names with a CUDA number. A table is
read from JSON: an object with the field `versions`, an object with one entry for each release, whose
field `packages` is an object with one entry for each package.
-/
import SourceLint.Json
import SourceLint.LintError

namespace SourceLint

/-- A package of a release. -/
structure Package where
  name : Text
  /-- Prereleases of the package are published. -/
  prerelease : Bool
  /-- The package is built under a name for each version of CUDA. -/
  cudaNumbered : Bool
  deriving DecidableEq, Repr

/-- A release with its packages. -/
structure Release where
  version : Text
  packages : List Package
  deriving DecidableEq, Repr

namespace Release

/-- The names of all packages of a release. -/
def packageNames (release : Release) : List Text := release.packages.map Package.name

/-- The names of the packages with prereleases. -/
def prereleaseNames (release : Release) : List Text :=
  (release.packages.filter Package.prerelease).map Package.name

/-- The names of the packages that are built for each version of CUDA. -/
def cudaNumberedNames (release : Release) : List Text :=
  (release.packages.filter Package.cudaNumbered).map Package.name

end Release

/-- Releases in the order in which they are given. -/
structure ReleaseTable where
  releases : List Release
  deriving DecidableEq, Repr

namespace ReleaseTable

/-- The versions of the releases. -/
def versions (table : ReleaseTable) : List Text := table.releases.map Release.version

/-- The release with a version. -/
def find (table : ReleaseTable) (version : Text) : Except LintError Release :=
  match table.releases.find? fun release => release.version = version with
  | some release => .ok release
  | none => .error (.configuration (.unknownRelease version))

/-- A field of an object is there and true. Other values do not count as true. -/
def isTrue (value : Json) (name : Text) : Bool :=
  match value.field? name with
  | some (.boolean flag) => flag
  | _ => false

/-- The package that an entry describes. -/
def packageOfEntry (name : Text) (entry : Json) : Except LintError Package :=
  match entry with
  | .object _ => .ok ⟨name, isTrue entry "prerelease", isTrue entry "cudaSuffixed"⟩
  | _ => .error (.configuration (.invalidPackageEntry name))

/-- The release that an entry describes. -/
def releaseOfEntry (version : Text) (entry : Json) : Except LintError Release :=
  match entry.field? "packages" with
  | some (.object packages) => do
    return ⟨version, ← packages.mapM fun (name, entry) => packageOfEntry name entry⟩
  | _ => .error (.configuration (.invalidVersionEntry version))

/-- The table that a JSON value describes, or the first thing that is wrong with it. -/
def ofJson (value : Json) : Except LintError ReleaseTable :=
  match value.field? "versions" with
  | some (.object entries) => do
    return ⟨← entries.mapM fun (version, entry) => releaseOfEntry version entry⟩
  | _ => .error (.configuration .missingVersionsTable)

end ReleaseTable

end SourceLint
