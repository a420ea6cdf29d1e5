/-
The copyright headers of a text. A header begins with a notice, or with the SPDX tag right before it;
it goes on to the end of the notice's line, over a license identifier on the next line, and over the
long text of the license below. What is not in a header is the rest of the file, in pieces.
-/
import SourceLint.Copyright.LicenseText
import SourceLint.Copyright.Notice

namespace SourceLint.Copyright

/-- The tag before the notice. -/
def noticeTag : Text := "SPDX-FileCopyrightText:"

/-- The tag before the license identifier. -/
def licenseTag : Text := "SPDX-License-Identifier:"

/-- The license of a header that names none. -/
def defaultLicense : Text := "Apache-2.0"

/-- A license identifier in a header. -/
structure LicenseLine where
  /-- Where the tag begins. -/
  start : Nat
  /-- How many units the tag takes with the spaces after it. -/
  tagLength : Nat
  identifier : Text
  deriving DecidableEq, Repr

namespace LicenseLine

/-- The place of the tag with the spaces after it. -/
def tagSpan (line : LicenseLine) : Span := ⟨line.start, line.start + line.tagLength⟩

/-- The place of the identifier. -/
def textSpan (line : LicenseLine) : Span :=
  ⟨line.start + line.tagLength, line.start + line.tagLength + line.identifier.length⟩

/-- The license identifier that a text at a position consists of. White space at the end does not
belong to it. -/
def read? (start : Nat) (text : Text) : Option LicenseLine := do
  let rest ← Text.after? licenseTag text
  let identifier := Text.trimEnd (Notice.skipSpaces rest)
  let firstUnit ← identifier.head?
  if firstUnit.isBlank || identifier.any CodeUnit.isLineTerminator then none
  else
    let spaces := rest.length - (Notice.skipSpaces rest).length
    some ⟨start, licenseTag.length + spaces, identifier⟩

end LicenseLine

/-- A copyright header. -/
structure Header where
  /-- Where the notice begins. -/
  noticeStart : Nat
  notice : Notice
  /-- The end of the notice's line. -/
  lineStop : Nat
  /-- Where the tag before the notice begins. -/
  tagStart : Option Nat
  /-- The comment leader: what stands before the header on its line. -/
  leader : Text
  license : Option LicenseLine
  longForm : Option Span
  deriving DecidableEq, Repr

namespace Header

/-- Where a header begins. -/
def start (header : Header) : Nat := header.tagStart.getD header.noticeStart

/-- Where a header ends without the long text. -/
def headStop (header : Header) : Nat :=
  match header.license with
  | some license => license.textSpan.stop
  | none => header.lineStop

/-- Where a header ends. -/
def stop (header : Header) : Nat :=
  match header.longForm with
  | some longForm => longForm.stop
  | none => header.headStop

/-- The place of a header. -/
def span (header : Header) : Span := ⟨header.start, header.stop⟩

/-- The place of the tag before the notice. -/
def tagSpan? (header : Header) : Option Span :=
  header.tagStart.map fun start => ⟨start, header.noticeStart⟩

/-- The place of the notice with what follows it on its line. -/
def lineSpan (header : Header) : Span := ⟨header.noticeStart, header.lineStop⟩

/-- The place of the notice. -/
def noticeSpan (header : Header) : Span :=
  ⟨header.noticeStart, header.noticeStart + header.notice.length⟩

/-- Where the years begin. -/
def yearsStart (header : Header) : Nat := header.noticeStart + header.notice.lead

/-- The place of the years. -/
def yearsSpan (header : Header) : Span :=
  ⟨header.yearsStart, header.yearsStart + header.notice.yearsLength⟩

/-- The place of the first year. -/
def firstYearSpan (header : Header) : Span :=
  ⟨header.yearsStart, header.yearsStart + header.notice.firstYear.length⟩

/-- The place of the last year, if there are two. -/
def lastYearSpan? (header : Header) : Option Span :=
  header.notice.lastYear.map fun year =>
    ⟨header.yearsSpan.stop - year.length, header.yearsSpan.stop⟩

/-- How many units the notice tag takes at the end of a text, with the spaces after it. -/
def tagLength? (text : Text) : Option Nat :=
  let beforeSpaces := (Notice.skipSpaces text.reverse).reverse
  if Text.endsWith beforeSpaces noticeTag then
    some (noticeTag.length + (text.length - beforeSpaces.length))
  else none

/-- The license identifier on a line, behind a comment leader. -/
def licenseOnLine? (leader : Text) (line : Line) : Option LicenseLine := do
  let rest ← Text.after? leader line.text
  LicenseLine.read? (line.start + leader.length) rest

/-- The header of a notice. -/
def ofNotice (lines : Lines) (noticeStart : Nat) (notice : Notice) : Except LintError Header := do
  let number ← lines.lineAt noticeStart
  let line := (lines.all[number]?).getD ⟨0, [], none⟩
  let beforeNotice := lines.content.slice line.start noticeStart
  let tagLength := tagLength? beforeNotice
  let leader := beforeNotice.take (beforeNotice.length - tagLength.getD 0)
  let license :=
    (lines.all[number + 1]?).bind fun next => licenseOnLine? (continuationLeader leader) next
  let headStart := noticeStart - tagLength.getD 0
  let identifier := (license.map LicenseLine.identifier).getD defaultLicense
  let lastLineStart := (license.map LicenseLine.start).getD headStart
  return {
    noticeStart := noticeStart
    notice := notice
    lineStop := line.stop
    tagStart := tagLength.map fun length => noticeStart - length
    leader := leader
    license := license
    longForm := ← findLongForm lines identifier lastLineStart }

/-- The first header whose notice begins at or after a position. -/
def next? (lines : Lines) (start : Nat) : Except LintError (Option Header) :=
  match Notice.find? lines.content start with
  | none => .ok none
  | some (noticeStart, notice) => (ofNotice lines noticeStart notice).map some

/-- The headers from a position on, each looked for after the end of the one before; no more than
`count` of them. -/
def someFrom (lines : Lines) : Nat → Nat → Except LintError (List Header)
  | 0, _ => .ok []
  | count + 1, start =>
    match next? lines start with
    | .error error => .error error
    | .ok none => .ok []
    | .ok (some header) => (someFrom lines count header.stop).map fun rest => header :: rest

/-- The headers of a text. There are fewer than the text has units, since each of them ends after
the position from which it was looked for. -/
def all (lines : Lines) : Except LintError (List Header) :=
  someFrom lines lines.content.length 0

/-- The pieces of a text from a position on that are not in the given headers. -/
def piecesFrom (content : Text) (start : Nat) : List Header → List Text
  | [] => [content.drop start]
  | header :: rest => content.slice start header.start :: piecesFrom content header.stop rest

/-- The pieces of a text that are not in the given headers. -/
def pieces (content : Text) (headers : List Header) : List Text := piecesFrom content 0 headers

end Header

end SourceLint.Copyright
