/-
The package lists of a dependency file. Such a file has sets of dependencies under `dependencies`;
each set has package lists in its `common` part, one for each group of outputs, and in its
`specific` part, one for each matrix of a group.
-/
import SourceLint.Yaml.Node

namespace SourceLint

open Yaml (Node)

/-- The package lists in the part of a dependency set that holds for all environments. -/
def commonPackages (common : Node) : List Node :=
  common.items.flatMap fun group => group.valuesOf "packages"

/-- The package lists in the part of a dependency set that holds for some environments. -/
def specificPackages (specific : Node) : List Node :=
  specific.items.flatMap fun group =>
    (group.valuesOf "matrices").flatMap fun matrices =>
      matrices.items.flatMap fun matrix => matrix.valuesOf "packages"

/-- The package lists of a dependency set. -/
def packagesOfSet (set : Node) : List Node :=
  set.entries.flatMap fun (key, value) =>
    if key = some (Text.ofString "common") then commonPackages value
    else if key = some (Text.ofString "specific") then specificPackages value
    else []

/-- The package lists of a dependency file, in the order in which they are written. -/
def packageLists (root : Node) : List Node :=
  (root.valuesOf "dependencies").flatMap fun dependencies =>
    dependencies.values.flatMap packagesOfSet

end SourceLint
