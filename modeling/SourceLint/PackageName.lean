/-
The names of packages. Names that differ only in letter case and in how points, hyphens and
underscores separate their words are the same package, so a name has a canonical form. A package that
is built for one version of CUDA has its number at the end of its name, as in `-cu12`.
-/
import SourceLint.Text.Blank
import SourceLint.LetterCase

namespace SourceLint.PackageName

/-- A unit that separates the words of a name. -/
def isSeparator (unit : CodeUnit) : Bool := unit == '-' || unit == '_' || unit == '.'

/-- A unit that a name is made of. -/
def isNameUnit (unit : CodeUnit) : Bool := unit.isAlphanumeric || isSeparator unit

/-- A text with one hyphen for each run of separators; `inRun` tells that its start belongs to a run
that has its hyphen. -/
def joinWords (inRun : Bool) : Text → Text
  | [] => []
  | unit :: rest =>
    if isSeparator unit then
      if inRun then joinWords true rest else ('-' : CodeUnit) :: joinWords true rest
    else unit :: joinWords false rest

/-- The canonical form of a name: in lower case, with one hyphen between words. -/
def canonical (name : Text) : Text := (joinWords false name).lowercase

/-- What stands between the name and its CUDA number. -/
def cudaMark : Text := "-cu"

/-- What stands before the CUDA number of a name: one line of text, and not the empty one. -/
def beforeCudaNumber? (name : Text) : Option Text :=
  let marked := (name.reverse.dropWhile CodeUnit.isDigit).reverse
  let base := marked.take (marked.length - cudaMark.length)
  if marked.length < name.length && Text.endsWith marked cudaMark && !base.isEmpty &&
      !base.any CodeUnit.isLineTerminator then
    some base
  else none

/-- A name without its CUDA number, if what is left names one of the given canonical packages. -/
def withoutCudaNumber (numbered : List Text) (name : Text) : Text :=
  match beforeCudaNumber? name with
  | some base => if numbered.contains (canonical base) then base else name
  | none => name

end SourceLint.PackageName
