/-
The table of releases that comes with the program. There is a release every second month; a package
belongs to the releases from its first to its last one, and its kind does not change between them.
-/
import SourceLint.Release

namespace SourceLint.ReleaseTable

/-- A month of a year of this century. -/
structure Month where
  year : Nat
  month : Nat

namespace Month

/-- The place of a month in time. -/
def index (month : Month) : Nat := month.year * 12 + month.month

/-- A number with at least two digits. -/
def twoDigits (number : Nat) : Text :=
  if number < 10 then "0" ++ Text.ofNat number else Text.ofNat number

/-- The version of the release of a month. -/
def version (month : Month) : Text := twoDigits month.year ++ "." ++ twoDigits month.month

end Month

/-- A package with the months of its first and its last release. -/
structure Lifespan where
  name : String
  first : Month
  last : Month
  prerelease : Bool
  cudaNumbered : Bool

/-- The package of a lifespan, if it belongs to the release of a month. -/
def Lifespan.package? (lifespan : Lifespan) (month : Month) : Option Package :=
  if lifespan.first.index ≤ month.index && month.index ≤ lifespan.last.index then
    some ⟨lifespan.name, lifespan.prerelease, lifespan.cudaNumbered⟩
  else none

/-- The known packages. -/
def lifespans : List Lifespan :=
  [⟨"cubinlinker", ⟨23, 2⟩, ⟨25, 6⟩, true, true⟩,
   ⟨"cucim", ⟨23, 2⟩, ⟨26, 12⟩, true, true⟩,
   ⟨"cudf", ⟨23, 2⟩, ⟨26, 12⟩, true, true⟩,
   ⟨"cudf-polars", ⟨24, 8⟩, ⟨26, 12⟩, true, true⟩,
   ⟨"cugraph", ⟨23, 2⟩, ⟨26, 12⟩, true, true⟩,
   ⟨"cugraph-dgl", ⟨23, 2⟩, ⟨25, 2⟩, true, true⟩,
   ⟨"cugraph-equivariant", ⟨24, 2⟩, ⟨25, 6⟩, true, true⟩,
   ⟨"cugraph-pyg", ⟨23, 2⟩, ⟨25, 6⟩, true, true⟩,
   ⟨"cuml", ⟨23, 2⟩, ⟨26, 12⟩, true, true⟩,
   ⟨"cuproj", ⟨23, 10⟩, ⟨26, 12⟩, true, true⟩,
   ⟨"cuspatial", ⟨23, 2⟩, ⟨25, 4⟩, true, true⟩,
   ⟨"cuvs", ⟨24, 4⟩, ⟨26, 12⟩, true, true⟩,
   ⟨"cuxfilter", ⟨23, 2⟩, ⟨26, 12⟩, true, true⟩,
   ⟨"dask-cuda", ⟨23, 2⟩, ⟨26, 12⟩, true, false⟩,
   ⟨"dask-cudf", ⟨23, 2⟩, ⟨26, 12⟩, true, true⟩,
   ⟨"distributed-ucxx", ⟨23, 10⟩, ⟨26, 12⟩, true, true⟩,
   ⟨"kvikio", ⟨23, 2⟩, ⟨26, 12⟩, true, true⟩,
   ⟨"libcudf", ⟨24, 8⟩, ⟨26, 12⟩, true, true⟩,
   ⟨"libcugraph", ⟨24, 10⟩, ⟨26, 12⟩, true, true⟩,
   ⟨"libcuml", ⟨24, 12⟩, ⟨26, 12⟩, true, true⟩,
   ⟨"libcuvs", ⟨24, 10⟩, ⟨26, 12⟩, true, true⟩,
   ⟨"libkvikio", ⟨24, 8⟩, ⟨26, 12⟩, true, true⟩,
   ⟨"libraft", ⟨24, 8⟩, ⟨26, 12⟩, true, true⟩,
   ⟨"librmm", ⟨24, 8⟩, ⟨26, 12⟩, true, true⟩,
   ⟨"libucx", ⟨24, 2⟩, ⟨26, 12⟩, true, true⟩,
   ⟨"libucxx", ⟨24, 10⟩, ⟨26, 12⟩, true, true⟩,
   ⟨"nx-cugraph", ⟨23, 12⟩, ⟨26, 12⟩, true, true⟩,
   ⟨"ptxcompiler", ⟨23, 2⟩, ⟨25, 6⟩, true, true⟩,
   ⟨"pylibcudf", ⟨24, 10⟩, ⟨26, 12⟩, true, true⟩,
   ⟨"pylibcugraph", ⟨23, 2⟩, ⟨26, 12⟩, true, true⟩,
   ⟨"pylibcugraphops", ⟨23, 2⟩, ⟨25, 4⟩, true, true⟩,
   ⟨"pylibraft", ⟨23, 2⟩, ⟨26, 12⟩, true, true⟩,
   ⟨"pylibwholegraph", ⟨23, 2⟩, ⟨26, 12⟩, true, true⟩,
   ⟨"pynvjitlink", ⟨24, 2⟩, ⟨25, 6⟩, true, true⟩,
   ⟨"raft-dask", ⟨23, 2⟩, ⟨26, 12⟩, true, true⟩,
   ⟨"rapids-dask-dependency", ⟨24, 4⟩, ⟨26, 12⟩, true, false⟩,
   ⟨"rapids-logger", ⟨25, 2⟩, ⟨26, 12⟩, false, false⟩,
   ⟨"rmm", ⟨23, 2⟩, ⟨26, 12⟩, true, true⟩,
   ⟨"ucx-py", ⟨23, 2⟩, ⟨25, 8⟩, true, true⟩,
   ⟨"ucxx", ⟨23, 10⟩, ⟨26, 12⟩, true, true⟩]

/-- The months with a release. -/
def releaseMonths : List Month :=
  [23, 24, 25, 26].flatMap fun year => [2, 4, 6, 8, 10, 12].map fun month => ⟨year, month⟩

/-- The table that comes with the program. -/
def bundled : ReleaseTable :=
  ⟨releaseMonths.map fun month =>
    ⟨month.version, lifespans.filterMap fun lifespan => lifespan.package? month⟩⟩

end SourceLint.ReleaseTable
