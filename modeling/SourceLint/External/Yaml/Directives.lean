/-
The directives of a YAML document and the tags that they give a meaning: a version, and the
beginnings that the handles of tags stand for.
-/
import SourceLint.Text.Utf8
import SourceLint.External.Yaml.Schema

namespace SourceLint.External.Yaml

/-- What the directives before a document say. The handles are kept the last first. -/
structure Directives where
  version : Version := .v12
  handles : List (Text × Text) := [("!!", "tag:yaml.org,2002:")]

/-- The words of a line between its spaces and tabs. -/
def wordsOf (line : Text) : List Text :=
  ((Text.splitAt 0x20 (line.map fun unit => if unit = 0x09 then 0x20 else unit)).filter
    fun word => !word.isEmpty)

/-- Digits, a point, digits. -/
def isVersionNumber (word : Text) : Bool :=
  match Text.splitAt '.' word with
  | [major, minor] => isRun CodeUnit.isDigit major && isRun CodeUnit.isDigit minor
  | _ => false

/-- Reads one directive line. A directive that is not known is passed over, and so is a version that
is not known, if it is one at all. -/
def Directives.add (directives : Directives) (line : Text) : Option Directives :=
  match wordsOf line.trim with
  | name :: words =>
    if name = Text.ofString "%TAG" then
      match words with
      | [handle, beginning] =>
        some { directives with handles := (handle, beginning) :: directives.handles }
      | _ => none
    else if name = Text.ofString "%YAML" then
      match words with
      | [word] =>
        if word = Text.ofString "1.1" then some { directives with version := .v11 }
        else if word = Text.ofString "1.2" then some { directives with version := .v12 }
        else if isVersionNumber word then some directives
        else none
      | _ => none
    else some directives
  | [] => some directives

/-- A text with its percent escapes read as UTF-8. -/
def percentDecode? (text : Text) : Option Text := go [] text
where
  /-- Reads on with the bytes of the escapes just before. -/
  go (bytes : List UInt8) : Text → Option Text
    | [] => Text.decode? bytes.reverse
    | [unit] => flush bytes [unit]
    | [unit, next] => flush bytes [unit, next]
    | unit :: first :: second :: rest =>
      if unit = '%' && first.isHexDigit && second.isHexDigit then
        go ((Text.hexDigitsValue [first, second]).toUInt8 :: bytes) rest
      else do
        let decoded ← Text.decode? bytes.reverse
        let text ← go [] (first :: second :: rest)
        if unit = '%' then none else some (decoded ++ unit :: text)
  /-- The end of a text, too short for an escape. -/
  flush (bytes : List UInt8) (rest : Text) : Option Text :=
    if rest.contains '%' then none
    else (Text.decode? bytes.reverse).map fun decoded => decoded ++ rest

/-- The full name of a tag. A tag of a single exclamation mark stands for itself, and so does one
that begins with a single mark, unless a directive says otherwise. -/
def Directives.tagName? (directives : Directives) (tag : Text) : Option Text :=
  if tag = Text.ofString "!" then some tag
  else if Text.startsWith tag "!<" then
    let name := (tag.drop 2).dropLast
    if tag.getLast? != some ('>' : CodeUnit) || name = Text.ofString "!" ||
        name = Text.ofString "!!" then none
    else some name
  else
    let suffix := (tag.reverse.takeWhile (· != ('!' : CodeUnit))).reverse
    let handle := tag.take (tag.length - suffix.length)
    if suffix.isEmpty then none
    else
      match directives.handles.lookup handle with
      | some beginning => (percentDecode? suffix).map fun decoded => beginning ++ decoded
      | none => if handle = Text.ofString "!" then some tag else none

end SourceLint.External.Yaml
