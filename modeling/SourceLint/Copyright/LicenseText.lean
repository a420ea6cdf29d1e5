/-
The long texts of licenses that stand below a notice in a comment. Each line of the text stands on a
line of its own behind the same comment leader; white space at the end of a line does not count, and
one line with nothing but the leader may stand between the notice and the text.
-/
import SourceLint.Lines

namespace SourceLint.Copyright

/-- The first `/*` of a text becomes ` *`: the lines after the first one of a block comment begin
with the star alone. -/
def continuationLeader : Text → Text
  | [] => []
  | [unit] => [unit]
  | unit :: next :: rest =>
    if unit = '/' && next = '*' then (' ' : CodeUnit) :: ('*' : CodeUnit) :: rest
    else unit :: continuationLeader (next :: rest)

/-- What is known of the long text of a license. -/
inductive LicenseEntry where
  | unknown
  | known (lines : List Text)
  /-- The identifier is a word that the table keeps for itself. -/
  | reserved

namespace LicenseEntry

/-- The text of the Apache license, version 2.0. -/
def apache : List Text := [
  "Licensed under the Apache License, Version 2.0 (the \"License\");",
  "you may not use this file except in compliance with the License.",
  "You may obtain a copy of the License at",
  "",
  "    http://www.apache.org/licenses/LICENSE-2.0",
  "",
  "Unless required by applicable law or agreed to in writing, software",
  "distributed under the License is distributed on an \"AS IS\" BASIS,",
  "WITHOUT WARRANTIES OR CONDITIONS OF ANY KIND, either express or implied.",
  "See the License for the specific language governing permissions and",
  "limitations under the License."]

/-- The words under which the table of license texts holds something that is no text. -/
def reservedWords : List Text := [
  "constructor", "hasOwnProperty", "isPrototypeOf", "propertyIsEnumerable", "toLocaleString",
  "toString", "valueOf", "__defineGetter__", "__defineSetter__", "__lookupGetter__",
  "__lookupSetter__", "__proto__"]

/-- The entry of a license. -/
def ofIdentifier (identifier : Text) : LicenseEntry :=
  if identifier = Text.ofString "Apache-2.0" then known apache
  else if reservedWords.contains identifier then reserved
  else unknown

end LicenseEntry

/-- A line reads as it should behind a comment leader. -/
def lineReads (leader expected : Text) (line : Line) : Bool :=
  Text.trimEnd line.text == Text.trimEnd (leader ++ expected)

/-- The end of the last of the expected lines, if all of them are there, where `stop` is the end of
what stands before them. -/
def endOfLines? (leader : Text) (stop : Nat) : List Text → List Line → Option Nat
  | [], _ => some stop
  | _ :: _, [] => none
  | expected :: more, line :: rest =>
    if lineReads leader expected line then endOfLines? leader line.stop more rest else none

/-- The place of the long text of a license on the lines after the one that holds a position. The
text before the position on its line is the comment leader. A line with nothing but the leader
belongs before the text, not to it. -/
def findLongForm (lines : Lines) (identifier : Text) (position : Int) :
    Except LintError (Option Span) :=
  match LicenseEntry.ofIdentifier identifier with
  | .unknown => .ok none
  | entry => do
    let number ← lines.lineAt position
    let lineStart := ((lines.all[number]?).map Line.start).getD 0
    let leader := continuationLeader (lines.content.slice lineStart position.toNat)
    match lines.all.drop (number + 1), entry with
    | [], _ => return none
    | _ :: _, .unknown => return none
    | _ :: _, .reserved => throw (.reservedIdentifier identifier)
    | first :: rest, .known expected =>
      let isBlank := lineReads leader [] first
      let start := if isBlank then first.stop else first.start
      let candidates := if isBlank then rest else first :: rest
      return (endOfLines? leader start expected candidates).map fun stop => ⟨start, stop⟩

end SourceLint.Copyright
