/-
The check of the copyright headers of a file that has changed since it was last committed to the
branch it is meant for. If nothing but headers differs between the two, the old notices come back;
else the newest notice has to name the current year. On demand the first header has to be written
with SPDX tags, under a given license and without the long text of it.
-/
import SourceLint.Copyright.Header
import SourceLint.FileStore
import SourceLint.Linter

namespace SourceLint.Copyright

/-- The name of the check, which directives use. -/
def checkName : Text := "verify-copyright"

/-- What the check demands of SPDX tags. -/
structure Policy where
  /-- Changed files have to have the tags. -/
  spdx : Bool := false
  /-- All files have to have the tags. -/
  forceSpdx : Bool := false
  /-- The license that the tags have to name. -/
  identifier : Text := defaultLicense

/-- What a file was before it changed. -/
structure Change where
  kind : ChangeKind
  oldName : Option Text
  oldContent : Option Text

/-! ### Years -/

/-- The notes on a file that is said to share the history of another one. -/
def historyNotes (change : Change) (content : Text) : List Note :=
  let verb : Option Text :=
    match change.kind with
    | .renamed => some "renamed"
    | .copied => some "copied"
    | _ => none
  match verb, change.oldName with
  | some verb, some oldName =>
    let wholeFile : Span := ⟨0, content.length⟩
    [⟨wholeFile,
        "file was " ++ verb ++ " from '" ++ oldName ++ "' and is assumed to share history with it"⟩,
      ⟨wholeFile,
        "change file contents if you want its copyright dates to only be determined by its own " ++
          "edit history"⟩]
  | _, _ => []

/-- The warning on a header that differs from the old one in its place. -/
def revertWarning? (change : Change) (content oldContent : Text) (old new : Header) :
    Option Warning :=
  let oldText := old.lineSpan.text oldContent
  if oldText = new.lineSpan.text content then none
  else
    let sameYears := old.yearsSpan.text oldContent = new.yearsSpan.text content
    some ⟨if sameYears then new.lineSpan else new.yearsSpan,
      "copyright is not out of date and should not be updated",
      [⟨new.lineSpan, oldText⟩], historyNotes change content⟩

/-- The warnings on headers that differ from the old ones in their places. -/
def revertWarnings (change : Change) (content oldContent : Text) (old new : List Header) :
    List Warning :=
  (old.zip new).filterMap fun (old, new) => revertWarning? change content oldContent old new

/-- The last of the headers with the greatest last year, where `best` is the one among those
before. -/
def newestOf (best : Header) : List Header → Header
  | [] => best
  | header :: rest =>
    newestOf (if best.notice.lastYearValue ≤ header.notice.lastYearValue then header else best) rest

/-- The warnings on a file whose newest notice does not name the current year. -/
def yearWarnings (year : Nat) : List Header → List Warning
  | [] => [⟨.point 0, "no copyright notice found", [], []⟩]
  | header :: rest =>
    let newest := newestOf header rest
    if year ≤ newest.notice.lastYearValue then []
    else
      let notice : Text :=
        "Copyright (c) " ++ Text.ofNat newest.notice.firstYearValue ++ "-" ++ Text.ofNat year ++
          ", NVIDIA CORPORATION"
      [⟨newest.yearsSpan, "copyright is out of date", [⟨newest.noticeSpan, notice⟩], []⟩]

/-! ### SPDX tags -/

/-- The warning on a header without the tag before its notice. -/
def tagWarnings (header : Header) : List Warning :=
  match header.tagStart with
  | some _ => []
  | none =>
    [⟨header.lineSpan, "include SPDX-FileCopyrightText header",
      [⟨.point header.noticeStart, noticeTag ++ " "⟩], []⟩]

/-- The warning on a header that names no license, or another one than the given. -/
def licenseWarnings (identifier : Text) (header : Header) : List Warning :=
  match header.license with
  | none =>
    let line : Text :=
      "\n" ++ continuationLeader header.leader ++ licenseTag ++ " " ++ identifier
    [⟨⟨header.start, header.lineStop⟩, "no SPDX-License-Identifier header found",
      [⟨.point header.lineStop, line⟩], []⟩]
  | some license =>
    if license.identifier = identifier then []
    else
      [⟨⟨license.start, license.textSpan.stop⟩, "SPDX-License-Identifier is incorrect",
        [⟨license.textSpan, identifier⟩], []⟩]

/-- The warning on a header with the long text of its license. -/
def longFormWarnings (header : Header) : List Warning :=
  match header.longForm with
  | none => []
  | some longForm =>
    [⟨longForm, "remove long-form copyright text", [⟨⟨header.headStop, longForm.stop⟩, []⟩], []⟩]

/-- The warnings on a header that is not written as the tags demand. -/
def spdxWarnings (identifier : Text) (header : Header) : List Warning :=
  tagWarnings header ++ licenseWarnings identifier header ++ longFormWarnings header

/-! ### The check -/

/-- The warnings on the years of a file whose headers are given. -/
def historyWarnings (year : Nat) (change : Change) (content : Text) (headers : List Header) :
    Except LintError (List Warning) :=
  match change.oldContent with
  | none => .ok (yearWarnings year headers)
  | some oldContent => do
    let oldHeaders ← Header.all (Lines.ofText oldContent)
    if Header.pieces oldContent oldHeaders = Header.pieces content headers then
      return revertWarnings change content oldContent oldHeaders headers
    else return yearWarnings year headers

/-- The warnings on a file, given what it was before. -/
def check (policy : Policy) (year : Nat) (change : Change) (source : Source) :
    Except LintError (List Warning) := do
  let headers ← Header.all source.lines
  let changed : Bool := change.oldContent ≠ some source.content
  let years ← if changed then historyWarnings year change source.content headers else .ok []
  let tags :=
    if policy.forceSpdx || (policy.spdx && changed) then
      (headers.head?.map (spdxWarnings policy.identifier)).getD []
    else []
  return years ++ tags

end SourceLint.Copyright
