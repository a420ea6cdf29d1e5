/-
The check of the license in a project file. The license of the project is a text or a table with a
text; it has to be one of the accepted ones. A license that is missing is added at the end of the
table of the project, or with a table of its own at the end of the file.
-/
import SourceLint.Linter
import SourceLint.Toml.Layout
import SourceLint.Toml.Value

namespace SourceLint.ProjectLicense

open Toml (Layout)

variable {Scalar : Type}

/-- The name of the check, which directives use. -/
def checkName : Text := "verify-pyproject-license"

/-- The license that a project should have. -/
def preferred : Text := "Apache 2.0"

/-- The licenses that are accepted. -/
def accepted : List Text := [preferred, "BSD-3-Clause"]

/-- What a document says of its license. -/
inductive Statement where
  | missing
  | text (license : Text)
  /-- Something that is neither a text nor a table with a text. -/
  | other
  deriving DecidableEq, Repr

/-- The license that the project table states. -/
def Statement.ofFields (project : Toml.Table Scalar) : Statement :=
  match project.get? "license" with
  | none => .missing
  | some (.text license) => .text license
  | some license =>
    match license.fields? with
    | none => .other
    | some fields =>
      match fields.get? "text" with
      | some (.text license) => .text license
      | _ => .other

/-- The license that a document states; without a project table there is none. -/
def Statement.ofDocument (document : Toml.Table Scalar) : Statement :=
  match (document.get? "project").bind Toml.Value.fields? with
  | some project => .ofFields project
  | none => .missing

/-- The line that states the preferred license. -/
def entry : Text := "license = \x7b text = " ++ preferred.quote ++ " \x7d\n"

/-- A line feed where one is needed. -/
def newlineIf (needed : Bool) : Text := if needed then [0x0A] else []

/-- The warning that the license is missing, with the text that adds it. -/
def missingWarning (content : Text) (layout : Layout) : Warning :=
  let message : Text := "add project.license with value \x7b text = " ++ preferred.quote ++ " \x7d"
  match layout.table? ["project"] with
  | some table =>
    let place := Span.point table.bodyEnd
    ⟨place, message, [⟨place, newlineIf (!table.bodyEndsWithNewline) ++ entry⟩], []⟩
  | none =>
    let place := Span.point content.length
    let needsNewline := !content.isEmpty && !Text.endsWith content "\n"
    ⟨place, message, [⟨place, newlineIf needsNewline ++ "[project]\n" ++ entry⟩], []⟩

/-- The warning that the license is not accepted, at the text of the license or at the license, if
either has a place. -/
def wrongWarning (layout : Layout) : Option Warning :=
  (layout.valueLocation? ["project", "license", "text"] <|>
      layout.valueLocation? ["project", "license"]).map
    fun place => ⟨place, "license should be " ++ preferred.quote, [], []⟩

/-- The warnings on a project file, given who reads it as TOML. -/
def check (parse : Text → Option (Toml.Table Scalar)) (source : Source) :
    Except LintError (List Warning) :=
  match parse source.content with
  | none => .error (.unparsable source.filename .malformedToml)
  | some document =>
    let layout := Layout.ofText source.content
    match Statement.ofDocument document with
    | .missing => .ok [missingWarning source.content layout]
    | .text license =>
      .ok (if accepted.contains license then [] else (wrongWarning layout).toList)
    | .other => .ok (wrongWarning layout).toList

end SourceLint.ProjectLicense
