/-
Directives: words in the linted text that switch its checks off and on. A directive is the marker, a
colon, blanks, and `enable` or `disable`; `-next-line` after the keyword limits it to the following
line, and a list of names in brackets limits it to those checks. A directive begins and its keyword
ends at a word boundary, and no further bracket may follow it.

A keyword before a `-next-line` that cannot be part of a directive, because of what comes after it,
is still a keyword at a word boundary, and so counts as a directive by itself.
-/
import SourceLint.Text.Blank

namespace SourceLint

/-- A directive that applies to the check at hand, by the position of its marker. -/
structure Directive where
  index : Nat
  enables : Bool
  /-- The directive governs the next line only. -/
  nextLine : Bool
  deriving DecidableEq, Repr

namespace Directive

/-- The word that begins each directive. -/
def marker : Text := "rapids-pre-commit-hooks"

/-- A directive as it is written, whatever check it names. -/
structure Written where
  length : Nat
  enables : Bool
  nextLine : Bool
  /-- The text between the brackets. -/
  names : Option Text
  deriving DecidableEq, Repr

/-- Whether a text begins with a word unit. -/
def beginsWord : Text → Bool
  | [] => false
  | unit :: _ => unit.isWordUnit

/-- Whether a bracket opens after blanks. -/
def opensBracket (text : Text) : Bool :=
  (text.dropWhile CodeUnit.isSpaceOrTab).head? == some ('[' : CodeUnit)

/-- A unit that may stand between the brackets. -/
def isNameUnit (unit : CodeUnit) : Bool := unit != ']' && unit != '\n'

/-- The names in brackets at the start of a text, after blanks, with the number of units read. -/
def bracketed? (text : Text) : Option (Text × Nat) :=
  let blanks := text.takeWhile CodeUnit.isSpaceOrTab
  match text.dropWhile CodeUnit.isSpaceOrTab with
  | unit :: rest =>
    let names := rest.takeWhile isNameUnit
    if unit = '[' && !names.isEmpty && (rest.dropWhile isNameUnit).head? == some (']' : CodeUnit)
    then some (names, blanks.length + names.length + 2)
    else none
  | [] => none

/-- What follows a keyword: at most one list of names, and no bracket after it. -/
def ending? (text : Text) : Option (Option Text × Nat) :=
  if beginsWord text then none
  else
    match bracketed? text with
    | some (names, length) =>
      if opensBracket (text.drop length) then none else some (some names, length)
    | none => if opensBracket text then none else some (none, 0)

/-- The words that limit a directive to the next line. -/
def nextLineSuffix : Text := "-next-line"

/-- What follows `enable` or `disable`: first read with the next-line words, then without. -/
def afterKeyword? (enables : Bool) (text : Text) : Option Written :=
  let limited :=
    if text.startsWith nextLineSuffix then
      (ending? (text.drop nextLineSuffix.length)).map fun (names, length) =>
        ⟨nextLineSuffix.length + length, enables, true, names⟩
    else none
  match limited with
  | some written => some written
  | none => (ending? text).map fun (names, length) => ⟨length, enables, false, names⟩

/-- The directive written at the start of a text. -/
def written? (text : Text) : Option Written :=
  if text.startsWith (marker ++ ":") then
    let afterColon := text.drop (marker.length + 1)
    let blanks := (afterColon.takeWhile CodeUnit.isSpaceOrTab).length
    let keyword := afterColon.drop blanks
    let readFrom (word : Text) (enables : Bool) : Option Written :=
      if Text.startsWith keyword word then
        (afterKeyword? enables (keyword.drop word.length)).map fun written : Written =>
          { written with length := marker.length + 1 + blanks + word.length + written.length }
      else none
    (readFrom "enable" true).or (readFrom "disable" false)
  else none

/-- All directives of a text from a position on. `inWord` says that a word unit comes right before;
`skipped` is the number of units that the last directive still covers. -/
def writtenFrom : Nat → Bool → Nat → Text → List (Nat × Written)
  | _, _, _, [] => []
  | position, _, skipped + 1, unit :: rest =>
    writtenFrom (position + 1) unit.isWordUnit skipped rest
  | position, inWord, 0, unit :: rest =>
    match if inWord then none else written? (unit :: rest) with
    | some written =>
      (position, written) ::
        writtenFrom (position + 1) unit.isWordUnit (written.length - 1) rest
    | none => writtenFrom (position + 1) unit.isWordUnit 0 rest

/-- Whether the names of a directive, if it has any, include a check. -/
def Written.appliesTo (written : Written) (check : Text) : Bool :=
  match written.names with
  | none => true
  | some names => ((names.splitAt ',').map Text.trim).contains check

/-- The directives of a text that apply to a check, from the left. -/
def find (content check : Text) : List Directive :=
  (writtenFrom 0 false 0 content).filterMap fun (index, written) =>
    if written.appliesTo check then some ⟨index, written.enables, written.nextLine⟩ else none

end Directive

end SourceLint
