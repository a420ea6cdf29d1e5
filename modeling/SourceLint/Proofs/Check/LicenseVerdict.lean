/-
This file proves when the check of a project file finds nothing wrong with the license. The verdict
is read off the document, but the place of the warning is looked up in the layout, which knows the
pairs of the text only: a license that no pair gives, such as one with a header of its own and
without a text, is passed over.
-/
import SourceLint.Proofs.Check.ProjectLicense

namespace SourceLint.ProjectLicense

open Toml (Table Value Layout ReadsToml)
open Toml.Written (Document Key)

variable {Scalar : Type}

/-- The document has a project table with this license. -/
def States (document : Table Scalar) (license : Value Scalar) : Prop :=
  ∃ project, (document.get? "project").bind Value.fields? = some project ∧
    project.get? "license" = some license

/-- A license is an accepted text or a table with one. -/
def IsAccepted (license : Value Scalar) : Prop :=
  ∃ text ∈ accepted, license = .text text ∨
    ∃ fields, license.fields? = some fields ∧ fields.get? "text" = some (.text text)

/-- The document has a project table with an accepted license. -/
def Complies (document : Table Scalar) : Prop :=
  ∃ license, States document license ∧ IsAccepted license

/-- A pair of a document gives the license or its text a value. -/
def GivesLicense {dialect : Toml.Dialect} (document : Document dialect) : Prop :=
  ∃ location ∈ document.locations Key.path [] 0,
    location.path = ["project", "license", "text"] ∨ location.path = ["project", "license"]

/-! ### What a document states -/

/-- The statement on a license. -/
theorem ofFields_of_fields?_eq_none {project : Table Scalar} {license : Value Scalar}
    (states : project.get? "license" = some license) (notText : ∀ text, license ≠ .text text)
    (noTable : license.fields? = none) : Statement.ofFields project = .other := by
  rw [Statement.ofFields, states]
  cases license
  case text text => exact absurd rfl (notText text)
  case table => cases noTable
  all_goals rfl

theorem ofFields_of_text {project fields : Table Scalar} {license : Value Scalar} {text : Text}
    (states : project.get? "license" = some license) (table : license.fields? = some fields)
    (found : fields.get? "text" = some (.text text)) :
    Statement.ofFields project = .text text := by
  rw [Statement.ofFields, states]
  cases license
  case table =>
    cases table
    simp only [Value.fields?, found]
  all_goals cases table

theorem ofFields_of_no_text {project fields : Table Scalar} {license : Value Scalar}
    (states : project.get? "license" = some license) (table : license.fields? = some fields)
    (noText : ∀ text, fields.get? "text" ≠ some (.text text)) :
    Statement.ofFields project = .other := by
  rw [Statement.ofFields, states]
  cases license
  case table =>
    cases table
    simp only [Value.fields?]
  all_goals cases table

theorem ofFields_cases (project : Table Scalar) :
    (project.get? "license" = none ∧ Statement.ofFields project = .missing) ∨
      ∃ license, project.get? "license" = some license ∧
        ((∃ text, Statement.ofFields project = .text text ∧
            (license = .text text ∨ ∃ fields, license.fields? = some fields ∧
              fields.get? "text" = some (.text text))) ∨
          Statement.ofFields project = .other ∧ ¬IsAccepted license) := by
  cases states : project.get? "license" with
  | none => exact Or.inl ⟨rfl, by rw [Statement.ofFields, states]⟩
  | some license =>
    refine Or.inr ⟨license, rfl, ?_⟩
    by_cases isText : ∃ text, license = .text text
    · obtain ⟨text, rfl⟩ := isText
      exact Or.inl ⟨text, by rw [Statement.ofFields, states], Or.inl rfl⟩
    · cases table : license.fields? with
      | none =>
        refine Or.inr ⟨ofFields_of_fields?_eq_none states (fun text same => isText ⟨text, same⟩) table,
          ?_⟩
        rintro ⟨text, -, same | ⟨fields, isTable, -⟩⟩
        · exact isText ⟨text, same⟩
        · rw [table] at isTable
          cases isTable
      | some fields =>
        by_cases hasText : ∃ text, fields.get? "text" = some (.text text)
        · obtain ⟨text, found⟩ := hasText
          exact Or.inl ⟨text, ofFields_of_text states table found, Or.inr ⟨fields, rfl, found⟩⟩
        · refine Or.inr ⟨ofFields_of_no_text states table fun text found => hasText ⟨text, found⟩, ?_⟩
          · rintro ⟨text, -, same | ⟨others, isTable, found⟩⟩
            · exact isText ⟨text, same⟩
            · cases table.symm.trans isTable
              exact hasText ⟨text, found⟩

/-- A license complies if its text is accepted, whether it stands alone or in a table. -/
theorem isAccepted_iff {license : Value Scalar} {text : Text}
    (holds : license = .text text ∨ ∃ fields, license.fields? = some fields ∧
      fields.get? "text" = some (.text text)) : IsAccepted license ↔ text ∈ accepted := by
  refine ⟨?_, fun isAccepted => ⟨text, isAccepted, holds⟩⟩
  rintro ⟨other, isAccepted, same⟩
  obtain rfl | ⟨fields, table, found⟩ := holds
  · obtain same | ⟨_, none, -⟩ := same
    · cases same
      exact isAccepted
    · cases none
  · obtain rfl | ⟨others, again, foundAgain⟩ := same
    · cases table
    · cases table.symm.trans again
      cases found.symm.trans foundAgain
      exact isAccepted

theorem States.unique {document : Table Scalar} {license other : Value Scalar}
    (states : States document license) (again : States document other) : license = other := by
  obtain ⟨project, isProject, found⟩ := states
  obtain ⟨same, isSame, foundAgain⟩ := again
  cases isProject.symm.trans isSame
  exact Option.some.inj (found.symm.trans foundAgain)

/-- What a document states of its license, and whether it complies. -/
theorem ofDocument_cases (document : Table Scalar) :
    (Statement.ofDocument document = .missing ∧ ∀ license, ¬States document license) ∨
      (∃ license, States document license) ∧
        ((∃ text, Statement.ofDocument document = .text text ∧
            (Complies document ↔ text ∈ accepted)) ∨
          Statement.ofDocument document = .other ∧ ¬Complies document) := by
  have complies (license : Value Scalar) (states : States document license) :
      Complies document ↔ IsAccepted license :=
    ⟨fun ⟨_, again, isAccepted⟩ => states.unique again ▸ isAccepted,
      fun isAccepted => ⟨license, states, isAccepted⟩⟩
  cases table : (document.get? "project").bind Value.fields? with
  | none =>
    refine Or.inl ⟨by rw [Statement.ofDocument, table], ?_⟩
    rintro license ⟨project, isProject, -⟩
    rw [table] at isProject
    cases isProject
  | some project =>
    have reads : Statement.ofDocument document = .ofFields project := by
      rw [Statement.ofDocument, table]
    rw [reads]
    obtain ⟨none, missing⟩ | ⟨license, found, ⟨text, isText, holds⟩ | ⟨isOther, refused⟩⟩ :=
      ofFields_cases project
    · refine Or.inl ⟨missing, ?_⟩
      rintro license ⟨same, isProject, found⟩
      cases table.symm.trans isProject
      rw [none] at found
      cases found
    · have states : States document license := ⟨project, table, found⟩
      exact Or.inr ⟨⟨license, states⟩, Or.inl ⟨text, isText,
        (complies license states).trans (isAccepted_iff holds)⟩⟩
    · have states : States document license := ⟨project, table, found⟩
      exact Or.inr ⟨⟨license, states⟩, Or.inr ⟨isOther,
        fun isAccepted => refused ((complies license states).mp isAccepted)⟩⟩

/-! ### The verdict -/

variable {dialect : Toml.Dialect} {parse : Text → Option (Table dialect.Scalar)}

/-- The warning on the license has a place if a pair gives the license or its text a value. -/
theorem isSome_wrongWarning_iff {document : Document dialect} (plain : document.KeysArePlain) :
    (wrongWarning (Layout.ofText document.source)).isSome ↔ GivesLicense document := by
  rw [wrongWarning, Option.isSome_map, Option.orElse_eq_orElse, Option.orElse_eq_or,
    Option.isSome_or, Bool.or_eq_true, Toml.isSome_valueLocation?_iff plain,
    Toml.isSome_valueLocation?_iff plain]
  constructor
  · rintro (⟨location, member, isText⟩ | ⟨location, member, isLicense⟩)
    · exact ⟨location, member, Or.inl isText⟩
    · exact ⟨location, member, Or.inr isLicense⟩
  · rintro ⟨location, member, isText | isLicense⟩
    · exact Or.inl ⟨location, member, isText⟩
    · exact Or.inr ⟨location, member, isLicense⟩

/-- On a document whose keys are not written with the numbers of characters the check gives one
warning, and it gives none if the document complies, or states a license that no pair gives. -/
theorem check_eq_of_readsToml (reads : ReadsToml dialect parse) (filename : Text)
    (regions : List Region) (document : Document dialect) (table : Table dialect.Scalar)
    (isTable : document.table? = some table) (plain : document.KeysArePlain) :
    ∃ warnings, check parse ⟨filename, Lines.ofText document.source, regions⟩ = .ok warnings ∧
      (warnings = [] ↔ Complies table ∨
        (∃ license, States table license) ∧ ¬GivesLicense document) ∧
      (warnings ≠ [] → ∃ warning, warnings = [warning]) := by
  have parses := reads.accepts document table isTable
  have located := isSome_wrongWarning_iff plain
  -- a license that is refused is reported if a pair gives it
  have refused (states : ∃ license, States table license) (fails : ¬Complies table) :
      let warnings := (wrongWarning (Layout.ofText document.source)).toList
      (warnings = [] ↔ Complies table ∨
        (∃ license, States table license) ∧ ¬GivesLicense document) ∧
      (warnings ≠ [] → ∃ warning, warnings = [warning]) := by
    rw [← located]
    cases wrongWarning (Layout.ofText document.source) with
    | none => exact ⟨by simp [states], fun some => absurd rfl some⟩
    | some warning => exact ⟨by simp [fails], fun _ => ⟨warning, rfl⟩⟩
  obtain ⟨missing, none⟩ | ⟨states, ⟨text, isText, complies⟩ | ⟨isOther, fails⟩⟩ :=
    ofDocument_cases table
  · have checks : check parse ⟨filename, Lines.ofText document.source, regions⟩ =
        .ok [missingWarning document.source (Layout.ofText document.source)] := by
      simp only [check, Source.content, Lines.content_ofText, parses, missing]
    refine ⟨_, checks, ⟨fun isNil => absurd isNil (List.cons_ne_nil _ _), ?_⟩, fun _ => ⟨_, rfl⟩⟩
    rintro (⟨license, states, -⟩ | ⟨⟨license, states⟩, -⟩) <;> exact absurd states (none license)
  · have checks : check parse ⟨filename, Lines.ofText document.source, regions⟩ =
        .ok (if accepted.contains text then [] else
          (wrongWarning (Layout.ofText document.source)).toList) := by
      simp only [check, Source.content, Lines.content_ofText, parses, isText]
    refine ⟨_, checks, ?_⟩
    split
    case isTrue isAccepted =>
      exact ⟨⟨fun _ => Or.inl (complies.mpr (by simpa using isAccepted)), fun _ => rfl⟩,
        fun some => absurd rfl some⟩
    case isFalse fails =>
      exact refused states fun isAccepted => fails (by simpa using complies.mp isAccepted)
  · have checks : check parse ⟨filename, Lines.ofText document.source, regions⟩ =
        .ok (wrongWarning (Layout.ofText document.source)).toList := by
      simp only [check, Source.content, Lines.content_ofText, parses, isOther]
    exact ⟨_, checks, refused states fails⟩

/-- The verdict on a project file with a license that is refused, in an inline table. -/
theorem check_eq_of_readsToml_inlineLicense :
    let parse := Toml.readerOf Toml.truthValues
    let source := Source.ofText "pyproject.toml" Toml.inlineLicense.source checkName
    let table : Table Bool := [("project", .table [("license", .table [("text", .text "MIT")])])]
    ReadsToml Toml.truthValues parse ∧ Toml.inlineLicense.table? = some table ∧
      Toml.inlineLicense.KeysArePlain ∧
      ∃ warnings, check parse source = .ok warnings ∧
        (warnings = [] ↔ Complies table ∨
          (∃ license, States table license) ∧ ¬GivesLicense Toml.inlineLicense) ∧
        (warnings ≠ [] → ∃ warning, warnings = [warning]) := by
  intro parse source table
  have reads : ReadsToml Toml.truthValues parse := Toml.readsToml_readerOf _
  have isTable : Toml.inlineLicense.table? = some table := rfl
  have plain : Toml.inlineLicense.KeysArePlain :=
    ⟨trivial, ⟨trivial, ⟨trivial, trivial⟩, trivial⟩, trivial⟩
  exact ⟨reads, isTable, plain,
    check_eq_of_readsToml reads "pyproject.toml" _ Toml.inlineLicense table isTable plain⟩

/-- A project file with a header for its license, which has no text. -/
def licenseHeader : Document Toml.truthValues :=
  .ofItems [.ofHeader false (.dotted (.ofName .project) .nothing .nothing (.ofName .license)),
    .pair (.ofValue (.ofName ⟨"file", by decide, by decide⟩) (.ofText "LICENSE" (by decide)))]

/-- A license that has a header of its own and no text is not reported. -/
theorem check_licenseHeader :
    let parse := Toml.readerOf Toml.truthValues
    let content : Text := "[project.license]\nfile = \"LICENSE\"\n"
    ReadsToml Toml.truthValues parse ∧
      ∃ table, parse content = some table ∧ ¬Complies table ∧
        check parse (Source.ofText "pyproject.toml" content checkName) = .ok [] := by
  intro parse content
  have isSource : licenseHeader.source = content := by decide +kernel
  have parses : parse content = some [(("project" : Text), .table
      [(("license" : Text), .table [(("file" : Text), .text "LICENSE")])])] := by
    rw [← isSource]
    exact (Toml.readerOf_source _).trans rfl
  have nowhere : wrongWarning (Layout.ofText content) = none := by decide +kernel
  refine ⟨Toml.readsToml_readerOf _, _, parses, ?_, ?_⟩
  · rintro ⟨license, ⟨project, table, found⟩, text, -, isText⟩
    cases table
    cases found
    obtain same | ⟨fields, table, found⟩ := isText
    · cases same
    · cases table
      cases found
  · simp only [check, Source.content, Source.ofText, Lines.content_ofText, parses, nowhere]
    rfl

end SourceLint.ProjectLicense
