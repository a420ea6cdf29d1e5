/-
This file proves what becomes of a project file without a license. The fix adds the preferred license
to the table of the project, and nothing else changes in the document: the line goes to the end of the
table if a header in single brackets has declared it, and behind the last line with a header of its
own if the project only came up in longer keys, or not at all. The fixed file is refused if the project
stands in an inline table and gets a header all the same.
-/
import SourceLint.Proofs.Check.LicenseVerdict
import SourceLint.Proofs.Region.Touching
import SourceLint.Proofs.Toml.Insertions

namespace SourceLint.ProjectLicense

open Toml (Table Value Fields Layout ReadsToml)
open Toml.Written (BareName Document Key)

variable {Scalar : Type}

/-- The license that the fix adds. -/
def addedLicense : Value Scalar := .table [("text", .text preferred)]

/-! ### The warning and its fix -/

/-- The fix of one insertion. -/
theorem fix_insertion (source : Source) (position : Nat) (message text : Text)
    (counts : Region.isEnabled source.regions (.point position) = true) :
    Linter.fix ⟨source, [⟨.point position, message, [⟨.point position, text⟩], []⟩]⟩ =
      .ok (Linter.splice source.content 0 [⟨.point position, text⟩]) := by
  have counted : Linter.counted
      ⟨source, [⟨.point position, message, [⟨.point position, text⟩], []⟩]⟩ =
        [⟨.point position, message, [⟨.point position, text⟩], []⟩] :=
    List.filter_eq_self.mpr (List.forall_mem_singleton.mpr counts)
  have replacements : Linter.replacements
      ⟨source, [⟨.point position, message, [⟨.point position, text⟩], []⟩]⟩ =
        [⟨.point position, text⟩] := by
    rw [Linter.replacements, counted]
    exact List.mergeSort_singleton _
  rw [Linter.fix, replacements]
  rfl

theorem splice_insertion (content : Text) (position : Nat) (text : Text) :
    Linter.splice content 0 [⟨.point position, text⟩] =
      content.take position ++ text ++ content.drop position := rfl

theorem endsWith_lineFeed_iff (text : Text) :
    Text.endsWith text "\n" = true ↔ text.getLast? = some 0x0A := by
  have lineFeed : ("\n" : Text) = [0x0A] := by decide
  rw [Text.endsWith, List.isSuffixOf_iff_suffix, lineFeed, List.getLast?_eq_some_iff]
  exact ⟨fun ⟨front, splits⟩ => ⟨front, splits.symm⟩, fun ⟨front, splits⟩ => ⟨front, splits.symm⟩⟩

/-- A line feed goes behind the file if it is not empty and has none. -/
theorem newlineIf_behind (text : Text) :
    newlineIf (!text.isEmpty && !Text.endsWith text "\n") =
      if text = [] ∨ text.getLast? = some 0x0A then [] else [0x0A] := by
  by_cases isLast : text.getLast? = some 0x0A
  · rw [if_pos (Or.inr isLast), (endsWith_lineFeed_iff text).mpr isLast]
    simp [newlineIf]
  · have noBreak : Text.endsWith text "\n" = false := by
      simpa using mt (endsWith_lineFeed_iff text).mp isLast
    cases text with
    | nil => rfl
    | cons unit rest =>
      rw [if_neg (by simp [isLast]), noBreak]
      rfl

/-- A document states the license that the fix adds. -/
theorem ofDocument_addedLicense {document project : Table Scalar}
    (table : document.get? "project" = some (.table project))
    (found : project.get? "license" = some addedLicense) :
    Statement.ofDocument document = .text preferred := by
  rw [Statement.ofDocument, table]
  simp only [Option.bind_some, Value.fields?, Statement.ofFields, found]
  rfl

/-- A project of a document that states no license has none. -/
theorem get?_license_of_missing {document project : Table Scalar}
    (missing : Statement.ofDocument document = .missing)
    (table : document.get? "project" = some (.table project)) : project.get? "license" = none := by
  rw [Statement.ofDocument, table] at missing
  change Statement.ofFields project = .missing at missing
  obtain ⟨none, -⟩ | ⟨license, -, ⟨text, isText, -⟩ | ⟨isOther, -⟩⟩ := ofFields_cases project
  · exact none
  · rw [isText] at missing
    cases missing
  · rw [isOther] at missing
    cases missing

/-! ### The lines that are added -/

section Lines

variable {dialect : Toml.Dialect}

/-- The line with the license, without its ending. -/
def licenseLine : Toml.Written.Line dialect :=
  .ofItem (.pair (.ofValue (.ofName .license)
    (.ofPair (.ofValue (.ofName .text) (.ofText preferred (by decide))))))

/-- The header of the project. -/
def projectHeader : Toml.Written.Line dialect :=
  .ofItem (.ofHeader false (.ofName .project))

theorem source_licenseLine (rest : Text) :
    (licenseLine : Toml.Written.Line dialect).source ++ 0x0A :: rest = entry ++ rest := by
  have line : (licenseLine : Toml.Written.Line dialect).source ++ [0x0A] = entry := rfl
  rw [← line, List.append_assoc]
  rfl

theorem source_projectHeader (rest : Text) :
    (projectHeader : Toml.Written.Line dialect).source ++ 0x0A :: rest = "[project]\n" ++ rest :=
  rfl

/-- The header of the project with the license under it. -/
def projectLines : Toml.Written.Document dialect :=
  .more projectHeader .lineFeed (.more licenseLine .lineFeed (.last .empty))

theorem source_projectLines :
    (projectLines : Toml.Written.Document dialect).source = "[project]\n" ++ entry := by
  have lines : (projectLines : Toml.Written.Document dialect).source =
      (projectHeader : Toml.Written.Line dialect).source ++
        0x0A :: ((licenseLine : Toml.Written.Line dialect).source ++ 0x0A :: []) := rfl
  rw [lines, source_projectHeader, source_licenseLine, List.append_nil]

theorem header?_projectHeader : (projectHeader : Toml.Written.Line dialect).header? =
    some (false, .ofName .project) := rfl

theorem defines_licenseLine : (licenseLine : Toml.Written.Line dialect).Defines "license"
    (.inlineTable [("text", .text preferred)]) :=
  ⟨_, rfl, fun _ => rfl⟩

end Lines

/-! ### Files with their license added -/

section Mended

variable {dialect : Toml.Dialect} {parse : Text → Option (Table dialect.Scalar)}

/-- The check of a project file gives one warning, whose replacements make the file another text: what
a fix gives, unless the warning stands in a disabled region. This text is read as a given document,
and the check finds nothing wrong with it. -/
def MendedTo (parse : Text → Option (Table Scalar)) (filename content : Text)
    (mended : Table Scalar) : Prop :=
  let source := Source.ofText filename content checkName
  ∃ warning fixed, check parse source = .ok [warning] ∧
    fixed = Linter.splice content 0 warning.replacements ∧
    (source.isEnabled warning = true → Linter.fix ⟨source, [warning]⟩ = .ok fixed) ∧
    parse fixed = some mended ∧ check parse (Source.ofText filename fixed checkName) = .ok []

theorem mendedTo_of_insertion {parse : Text → Option (Table Scalar)}
    {filename content message text : Text} {position : Nat} {document mended project : Table Scalar}
    (parses : parse content = some document)
    (missing : Statement.ofDocument document = .missing)
    (warns : missingWarning content (Layout.ofText content) =
      ⟨.point position, message, [⟨.point position, text⟩], []⟩)
    (mends : parse (content.take position ++ text ++ content.drop position) = some mended)
    (table : mended.get? "project" = some (.table project))
    (found : project.get? "license" = some addedLicense) :
    MendedTo parse filename content mended := by
  have content_eq (text : Text) : (Source.ofText filename text checkName).content = text :=
    Lines.content_ofText text
  rw [← splice_insertion] at mends
  refine ⟨⟨.point position, message, [⟨.point position, text⟩], []⟩, _, ?_, rfl, fun counts => ?_,
    mends, ?_⟩
  · simp only [check, content_eq, parses, missing, warns]
  · rw [fix_insertion _ _ _ _ counts, content_eq]
  · simp only [check, content_eq, mends, ofDocument_addedLicense table found]
    rfl

/-- No part of the path of the project has an escape. -/
theorem noEscape_project : ∀ part ∈ [("project" : Text)], Toml.backslash ∉ part := by decide

/-- A project file with a header for the project in single brackets, which is not written with the
numbers of characters, gets the license at the end of its table. All else in the document stays. -/
theorem mendedTo_of_header (reads : ReadsToml dialect parse) (filename : Text)
    (document : Document dialect) (table : Table dialect.Scalar)
    (isTable : document.table? = some table) (key : Key dialect)
    (isHeader : (false, key) ∈ document.headers) (named : key.path = ["project"])
    (plain : key.IsPlain) (missing : Statement.ofDocument table = .missing) :
    ∃ project mended, table.get? "project" = some (.table project) ∧
      Fields.Added "license" addedLicense project mended ∧
      MendedTo parse filename document.source (table.set "project" (.table mended)) := by
  obtain ⟨-, noHeader⟩ | ⟨place, changed, found, inserted, front, back, isSource, isEnd, isChanged⟩ :=
    Toml.table?_ofText document ["project"] licenseLine
  · exact absurd ((key.scanned_eq plain).trans named) (noHeader _ isHeader)
  · obtain ⟨project, isProject, adds⟩ := Document.exists_added isHeader named (by decide)
      defines_licenseLine inserted isTable
    obtain ⟨mended, added, isMended⟩ := adds (get?_license_of_missing missing isProject)
    refine ⟨project, mended, isProject, added, ?_⟩
    refine mendedTo_of_insertion (reads.accepts _ _ isTable) missing (by rw [missingWarning, found])
      ?_ Fields.get?_set_self added.get?_self
    have fixed : document.source.take place.bodyEnd ++
        (newlineIf (!place.bodyEndsWithNewline) ++ entry) ++ document.source.drop place.bodyEnd =
          changed.source := by
      rw [isChanged, source_licenseLine, isSource, isEnd, Nat.zero_add, List.take_left,
        List.drop_left]
      simp only [List.append_assoc]
      cases place.bodyEndsWithNewline <;> rfl
    rw [fixed]
    exact reads.accepts changed _ isMended

/-- A project file that has no header for the project and gives it no value gets a header, with the
license under it. All else in the document stays, also what longer keys and headers have put into the
project. -/
theorem mendedTo_of_no_header (reads : ReadsToml dialect parse) (filename : Text)
    (document : Document dialect) (table : Table dialect.Scalar)
    (isTable : document.table? = some table) (avoids : document.Avoids "project")
    (missing : Statement.ofDocument table = .missing) :
    ∃ project, (table.get? "project" = none ∧ project = [] ∨
        table.get? "project" = some (.table project)) ∧
      MendedTo parse filename document.source
        (table.set "project" (.table (Fields.set project "license" addedLicense))) := by
  have noTable : (Layout.ofText document.source).table? ["project"] = none := by
    obtain ⟨none, -⟩ | ⟨place, changed, -, inserted, -⟩ :=
      Toml.table?_ofText document ["project"] licenseLine
    · exact none
    · obtain ⟨header, isHeader, named⟩ := inserted.exists_header
      exact absurd (header.2.path_eq_of_scanned named noEscape_project) (avoids.1 header isHeader)
  obtain ⟨project, isProject, adds⟩ := Document.exists_declared avoids header?_projectHeader rfl
    defines_licenseLine rfl isTable
  refine ⟨project, isProject, ?_⟩
  have isNew : Fields.get? project "license" = none := by
    obtain ⟨-, rfl⟩ | found := isProject
    · rfl
    · exact get?_license_of_missing missing found
  refine mendedTo_of_insertion (reads.accepts _ _ isTable) missing (by rw [missingWarning, noTable])
    ?_ Fields.get?_set_self Fields.get?_set_self
  have fixed : document.source.take document.source.length ++
      (newlineIf (!document.source.isEmpty && !Text.endsWith document.source "\n") ++ "[project]\n" ++
        entry) ++ document.source.drop document.source.length =
          (document.append projectLines).source := by
    rw [List.take_length, List.drop_length, List.append_nil, Document.source_append,
      source_projectLines, newlineIf_behind, List.append_assoc]
  rw [fixed]
  exact reads.accepts _ _ (adds isNew)

end Mended

/-! ### Files and their fixes -/

/-- The name of the name of a project. -/
def projectName : BareName := ⟨"name", by decide, by decide⟩

/-- A project file with a sub-table behind the table of the project, and a comment between them. -/
def projectWithTable : Document Toml.truthValues :=
  .more (.ofItem (.ofHeader false (.ofName .project))) .lineFeed
    (.more (.ofItem (.pair (.ofValue (.ofName projectName) (.ofText "x" (by decide))))) .lineFeed
      (.more ⟨.nothing, none, .nothing, some ⟨" where it lives", by decide⟩⟩ .lineFeed
        (.more .empty .lineFeed (.ofItems [
          .ofHeader false (.dotted (.ofName .project) .nothing .nothing
            (.ofName ⟨"urls", by decide, by decide⟩)),
          .pair (.ofValue (.ofName ⟨"home", by decide, by decide⟩) (.ofText "y" (by decide)))]))))

/-- The license goes behind the comment, before the sub-table. -/
theorem mendedTo_of_header_projectWithTable :
    let parse := Toml.readerOf Toml.truthValues
    let key : Key Toml.truthValues := .ofName .project
    let table : Table Bool := [("project", .table [("name", .text "x"),
      ("urls", .table [("home", .text "y")])])]
    ReadsToml Toml.truthValues parse ∧ projectWithTable.table? = some table ∧
      (false, key) ∈ projectWithTable.headers ∧ key.path = ["project"] ∧ key.IsPlain ∧
      Statement.ofDocument table = .missing ∧
      ∃ project mended, table.get? "project" = some (.table project) ∧
        Fields.Added "license" addedLicense project mended ∧
        MendedTo parse "pyproject.toml" projectWithTable.source
          (table.set "project" (.table mended)) := by
  intro parse key table
  have reads : ReadsToml Toml.truthValues parse := Toml.readsToml_readerOf _
  have isTable : projectWithTable.table? = some table := rfl
  have isHeader : (false, key) ∈ projectWithTable.headers := List.mem_cons_self
  exact ⟨reads, isTable, isHeader, rfl, trivial, rfl, mendedTo_of_header reads "pyproject.toml"
    projectWithTable table isTable key isHeader rfl trivial rfl⟩

/-- A project file that gives the project a name in a longer key, and no header. -/
def dottedName : Document Toml.truthValues :=
  .last (.ofItem (.pair (.ofValue (.dotted (.ofName .project) .nothing .nothing
    (.ofName projectName)) (.ofText "x" (by decide)))))

example : dottedName.source = "project.name = \"x\"" := by decide +kernel

/-- The project gets a header, and the license under it. -/
theorem mendedTo_of_no_header_dottedName :
    let parse := Toml.readerOf Toml.truthValues
    let table : Table Bool := [("project", .table [("name", .text "x")])]
    ReadsToml Toml.truthValues parse ∧ dottedName.table? = some table ∧
      dottedName.Avoids "project" ∧ Statement.ofDocument table = .missing ∧
      ∃ project, (table.get? "project" = none ∧ project = [] ∨
          table.get? "project" = some (.table project)) ∧
        MendedTo parse "pyproject.toml" dottedName.source
          (table.set "project" (.table (Fields.set project "license" addedLicense))) := by
  intro parse table
  have reads : ReadsToml Toml.truthValues parse := Toml.readsToml_readerOf _
  have isTable : dottedName.table? = some table := rfl
  have avoids : dottedName.Avoids "project" := ⟨nofun, List.forall_mem_singleton.mpr (by decide)⟩
  exact ⟨reads, isTable, avoids, rfl,
    mendedTo_of_no_header reads "pyproject.toml" dottedName table isTable avoids rfl⟩

/-- The fix of an accepted project file without a license is refused. -/
def FixIsRefused (parse : Text → Option (Table Scalar)) (filename content : Text) : Prop :=
  let source := Source.ofText filename content checkName
  ∃ document warning fixed, parse content = some document ∧
    Statement.ofDocument document = .missing ∧ check parse source = .ok [warning] ∧
    Linter.fix ⟨source, [warning]⟩ = .ok fixed ∧ parse fixed = none

theorem fixIsRefused_of_insertion {parse : Text → Option (Table Scalar)}
    {filename content message text : Text} {position : Nat} {document : Table Scalar}
    (parses : parse content = some document) (missing : Statement.ofDocument document = .missing)
    (warns : missingWarning content (Layout.ofText content) =
      ⟨.point position, message, [⟨.point position, text⟩], []⟩)
    (regions : Region.ofLines (Lines.ofText content) checkName = [⟨⟨0, content.length⟩, true⟩])
    (inside : position ≤ content.length)
    (refused : parse (content.take position ++ text ++ content.drop position) = none) :
    FixIsRefused parse filename content := by
  have content_eq : (Source.ofText filename content checkName).content = content :=
    Lines.content_ofText content
  have counts : Region.isEnabled (Source.ofText filename content checkName).regions
      (.point position) = true := by
    rw [Source.ofText, regions]
    exact Region.isEnabled_whole _ _ (Nat.le_refl _) inside
  refine ⟨document, _, _, parses, missing, ?_, fix_insertion _ _ message text counts, ?_⟩
  · simp only [check, content_eq, parses, missing, warns]
  · rw [content_eq, splice_insertion]
    exact refused

/-- A project file with the project in an inline table. -/
def inlineProject : Document Toml.truthValues :=
  .ofItems [.pair (.ofValue (.ofName .project)
    (.ofPair (.ofValue (.ofName projectName) (.ofText "x" (by decide)))))]

/-- The header of the fix is a second project. -/
theorem fixIsRefused_inlineProject :
    let parse := Toml.readerOf Toml.truthValues
    ReadsToml Toml.truthValues parse ∧
      FixIsRefused parse "pyproject.toml" "project = \x7b name = \"x\" \x7d\n" := by
  intro parse
  refine ⟨Toml.readsToml_readerOf _, ?_⟩
  have isSource : inlineProject.source = "project = \x7b name = \"x\" \x7d\n" := by decide +kernel
  have warns : missingWarning inlineProject.source (Layout.ofText inlineProject.source) =
      ⟨.point 25, "add project.license with value \x7b text = \"Apache 2.0\" \x7d",
        [⟨.point 25, "[project]\n" ++ entry⟩], []⟩ := by decide +kernel
  have parses : parse inlineProject.source =
      some [(("project" : Text), .table [(("name" : Text), .text "x")])] :=
    (Toml.readerOf_source _).trans rfl
  have fixed : inlineProject.source.take 25 ++ ("[project]\n" ++ entry) ++
      inlineProject.source.drop 25 = (inlineProject.append projectLines).source := by decide +kernel
  rw [← isSource]
  refine fixIsRefused_of_insertion parses rfl warns (by decide +kernel) (by decide +kernel) ?_
  rw [fixed]
  exact (Toml.readerOf_source _).trans rfl

end SourceLint.ProjectLicense
