/-
Requirements on packages, as in `cudf[test]>=24.4,<24.6; python_version > "3.9"`: the name of a
package, its extras in brackets, the versions that will do, and a marker that says when the
requirement holds. White space around these parts does not count and is not kept. What does not have
this form, such as an option of the installer or an address, is no requirement.
-/
import SourceLint.PackageName

namespace SourceLint

/-- How the version of a package has to compare with a given one. -/
inductive Comparison where
  | compatible
  | identical
  | equal
  | different
  | atMost
  | atLeast
  | less
  | greater
  deriving DecidableEq, Repr

namespace Comparison

/-- The written form of a comparison. -/
def text : Comparison → Text
  | compatible => "~="
  | identical => "==="
  | equal => "=="
  | different => "!="
  | atMost => "<="
  | atLeast => ">="
  | less => "<"
  | greater => ">"

/-- All comparisons; of two where one begins with the other the longer comes first. -/
def all : List Comparison :=
  [compatible, identical, equal, different, atMost, atLeast, less, greater]

end Comparison

/-- One condition on the version of a package. -/
structure Specifier where
  comparison : Comparison
  version : Text
  deriving DecidableEq, Repr

namespace Specifier

/-- The written form of a specifier. -/
def text (specifier : Specifier) : Text := specifier.comparison.text ++ specifier.version

/-- A unit that a version is made of. -/
def isVersionUnit (unit : CodeUnit) : Bool :=
  unit.isAlphanumeric || unit == '.' || unit == '*' || unit == '+' || unit == '!' || unit == '_' ||
    unit == '-'

/-- The specifier that a text without white space around it stands for. -/
def ofText? (text : Text) : Option Specifier := do
  let comparison ← Comparison.all.find? fun comparison => Text.startsWith text comparison.text
  let version := Text.trimStart (text.drop comparison.text.length)
  if version.isEmpty || !version.all isVersionUnit then none else some ⟨comparison, version⟩

/-- The specifiers with commas between them; a text of white space has none. -/
def listOfText? (text : Text) : Option (List Specifier) :=
  if text.trim.isEmpty then some []
  else (Text.splitAt ',' text).mapM fun part => ofText? part.trim

end Specifier

/-- A requirement on a package. -/
structure Requirement where
  name : Text
  /-- The extras with their brackets, or nothing. -/
  extras : Text
  specifiers : List Specifier
  marker : Option Text
  deriving DecidableEq, Repr

namespace Requirement

/-- The name at the start of a text: from a letter or digit to the last one before the name's units
end. -/
def readName? (text : Text) : Option Text :=
  match text with
  | [] => none
  | unit :: _ =>
    if unit.isAlphanumeric then
      let run := text.takeWhile PackageName.isNameUnit
      some (run.reverse.dropWhile fun unit => !unit.isAlphanumeric).reverse
    else none

/-- The bracketed extras at the start of a text, or nothing if no bracket is there or none closes
it. -/
def readExtras (text : Text) : Text :=
  match text with
  | [] => []
  | unit :: rest =>
    let isInner (unit : CodeUnit) : Bool := unit != ']'
    if unit = '[' && !(rest.dropWhile isInner).isEmpty then
      unit :: rest.takeWhile isInner ++ "]"
    else []

/-- The requirement that a text stands for. -/
def ofText? (text : Text) : Option Requirement := do
  let text := text.trimStart
  let name ← readName? text
  let afterName := Text.trimStart (text.drop name.length)
  let extras := readExtras afterName
  let rest := afterName.drop extras.length
  let isBeforeMarker (unit : CodeUnit) : Bool := unit != ';'
  let specifiers ← Specifier.listOfText? (rest.takeWhile isBeforeMarker)
  let marker :=
    match rest.dropWhile isBeforeMarker with
    | [] => none
    | _ :: marker => some (Text.trim marker)
  return ⟨name, extras, specifiers, marker⟩

/-- The written form of a requirement. -/
def text (requirement : Requirement) : Text :=
  requirement.name ++ requirement.extras ++
    Text.join "," (requirement.specifiers.map Specifier.text) ++
    match requirement.marker with
    | none => []
    | some marker => "; " ++ marker

end Requirement

end SourceLint
