/-
This file says what the alpha check makes of one requirement. A requirement that was read is read back
from its written form, also when the alpha specifier is put behind its specifiers or taken out of them.
So the requirement that a warning asks for has the name, the extras, the marker and the other specifiers
of the one that is there, in their order, and an entry that holds it gets no warning in the same mode.
-/
import SourceLint.Proofs.Check.AlphaSpec

namespace SourceLint

namespace Requirement

variable {requirement : Requirement}

/-! ### The alpha specifier in a requirement -/

/-- A requirement with the alpha specifier behind its specifiers. -/
def withAlpha (requirement : Requirement) : Requirement :=
  { requirement with specifiers := requirement.specifiers ++ [AlphaSpec.alphaSpecifier] }

/-- The specifiers of a requirement that are not written as the alpha specifier is. -/
def otherSpecifiers (requirement : Requirement) : List Specifier :=
  requirement.specifiers.filter fun specifier => specifier.text ≠ ">=0.0.0a0"

/-- A requirement without the specifiers that are written as the alpha specifier is. -/
def withoutAlpha (requirement : Requirement) : Requirement :=
  { requirement with specifiers := requirement.otherSpecifiers }

theorem WellFormed.withAlpha (wellFormed : requirement.WellFormed) :
    requirement.withAlpha.WellFormed :=
  { wellFormed with
    specifiers := List.forall_mem_append.mpr ⟨wellFormed.specifiers,
      List.forall_mem_singleton.mpr AlphaSpec.alphaSpecifier_wellFormed⟩ }

theorem WellFormed.withoutAlpha (wellFormed : requirement.WellFormed) :
    requirement.withoutAlpha.WellFormed :=
  { wellFormed with
    specifiers := fun specifier member =>
      wellFormed.specifiers specifier (List.mem_of_mem_filter member) }

/-- Only the alpha specifier is written as it is. -/
theorem WellFormed.otherSpecifiers_eq (wellFormed : requirement.WellFormed) :
    requirement.otherSpecifiers =
      requirement.specifiers.filter fun specifier => specifier ≠ AlphaSpec.alphaSpecifier := by
  refine List.filter_congr fun specifier member => decide_eq_decide.mpr (not_congr ⟨?_, ?_⟩)
  · intro same
    have written : specifier.text = AlphaSpec.alphaSpecifier.text := same
    have reads := Specifier.ofText?_text (wellFormed.specifiers specifier member)
    rw [written, Specifier.ofText?_text AlphaSpec.alphaSpecifier_wellFormed] at reads
    exact (Option.some.inj reads).symm
  · rintro rfl
    rfl

theorem otherSpecifiers_withAlpha (requirement : Requirement) :
    requirement.withAlpha.otherSpecifiers = requirement.otherSpecifiers := by
  have noOther : [AlphaSpec.alphaSpecifier].filter
      (fun specifier : Specifier => specifier.text ≠ ">=0.0.0a0") = [] := rfl
  rw [otherSpecifiers, withAlpha, List.filter_append, noOther, List.append_nil]
  rfl

theorem otherSpecifiers_withoutAlpha (requirement : Requirement) :
    requirement.withoutAlpha.otherSpecifiers = requirement.otherSpecifiers := by
  rw [otherSpecifiers, withoutAlpha, otherSpecifiers, List.filter_filter]
  simp only [Bool.and_self]

end Requirement

namespace AlphaSpec

open Yaml (Node)

variable {mode : Mode} {names : PackageNames} {requirement corrected : Requirement}

/-- A requirement as a mode wants it to be. -/
def wanted (mode : Mode) (requirement : Requirement) : Requirement :=
  match mode with
  | .development => requirement.withAlpha
  | .release => requirement.withoutAlpha

theorem eq_wanted_of_corrected? (wellFormed : requirement.WellFormed)
    (corrects : corrected? mode requirement = some corrected) : corrected = wanted mode requirement := by
  cases mode with
  | development =>
    rw [corrected?] at corrects
    split_ifs at corrects
    exact (Option.some.inj corrects).symm
  | release =>
    rw [corrected?, ← wellFormed.otherSpecifiers_eq] at corrects
    split_ifs at corrects
    exact (Option.some.inj corrects).symm

/-- What a mode wants differs from what is there in the alpha specifier only. -/
theorem wanted_keeps (mode : Mode) (requirement : Requirement) :
    (wanted mode requirement).name = requirement.name ∧
      (wanted mode requirement).extras = requirement.extras ∧
      (wanted mode requirement).marker = requirement.marker ∧
      (wanted mode requirement).otherSpecifiers = requirement.otherSpecifiers := by
  cases mode with
  | development => exact ⟨rfl, rfl, rfl, requirement.otherSpecifiers_withAlpha⟩
  | release => exact ⟨rfl, rfl, rfl, requirement.otherSpecifiers_withoutAlpha⟩

/-- A requirement that was read is read back from its written form, with the alpha specifier added
and without it. A warning on an entry with the text asks for the written form of what the mode wants,
which has all parts of the requirement but for the alpha specifier and gets no warning in turn. -/
theorem written_reads_back {text : Text} (reads : Requirement.ofText? text = some requirement) :
    Requirement.ofText? requirement.text = some requirement ∧
      Requirement.ofText? requirement.withAlpha.text = some requirement.withAlpha ∧
      Requirement.ofText? requirement.withoutAlpha.text = some requirement.withoutAlpha ∧
      ∀ (mode : Mode) (names : PackageNames) (node : Node) (warning : Warning),
        node.text? = some text → entryWarning? mode names node = some warning →
        ∃ written : Requirement, warning.replacements = [⟨warning.span, node.requote written.text⟩] ∧
          node.span? = some warning.span ∧
          Requirement.ofText? written.text = some written ∧
          written = wanted mode requirement ∧
          written.name = requirement.name ∧ written.extras = requirement.extras ∧
          written.marker = requirement.marker ∧
          written.otherSpecifiers = requirement.otherSpecifiers ∧
          ∀ again : Node, again.text? = some written.text → entryWarning? mode names again = none := by
  have wellFormed := Requirement.wellFormed_of_ofText? reads
  refine ⟨Requirement.ofText?_text wellFormed, Requirement.ofText?_text wellFormed.withAlpha,
    Requirement.ofText?_text wellFormed.withoutAlpha, ?_⟩
  intro mode names node warning isText warns
  obtain ⟨read, style, span, found, corrected, rfl, readsFound, corrects, rfl⟩ :=
    entryWarning?_eq_some.mp warns
  cases isText
  cases Option.some.inj (reads.symm.trans readsFound)
  have isWanted : corrected = wanted mode requirement := by
    rw [correction?, reads, Option.bind_some] at corrects
    split_ifs at corrects
    exact eq_wanted_of_corrected? wellFormed corrects
  obtain ⟨name, extras, marker, others⟩ := wanted_keeps mode requirement
  rw [← isWanted] at name extras marker others
  refine ⟨corrected, rfl, rfl, ofText?_text_of_correction? corrects, isWanted, name, extras, marker,
    others, fun again isAgain => entryWarning?_eq_none_iff.mpr fun other isOther => ?_⟩
  cases Option.some.inj (isAgain.symm.trans isOther)
  exact correction?_text corrects

/-- A requirement with a semicolon and a comma in its extras, white space between its parts, the alpha
specifier among others and an empty marker. -/
def spaced : Text := " cudf [a;b,c] >= 24.4 , >=0.0.0a0,<24.6 ;"

theorem written_reads_back_spaced :
    Requirement.ofText? spaced = some ⟨"cudf", "[a;b,c]",
        [⟨.atLeast, "24.4"⟩, alphaSpecifier, ⟨.less, "24.6"⟩], some []⟩ ∧
      entryWarning? .release ⟨["cudf"], []⟩ (.scalar (.text spaced) .doubleQuoted ⟨4, 48⟩) =
        some ⟨⟨4, 48⟩, "remove alpha spec for RAPIDS package cudf",
          [⟨⟨4, 48⟩, "\"cudf[a;b,c]>=24.4,<24.6; \""⟩], []⟩ ∧
      Requirement.ofText? "cudf[a;b,c]>=24.4,<24.6; " = some ⟨"cudf", "[a;b,c]",
        [⟨.atLeast, "24.4"⟩, ⟨.less, "24.6"⟩], some []⟩ ∧
      entryWarning? .release ⟨["cudf"], []⟩
        (.scalar (.text "cudf[a;b,c]>=24.4,<24.6; ") .doubleQuoted ⟨4, 31⟩) = none := by
  have reads : Requirement.ofText? spaced = some ⟨"cudf", "[a;b,c]",
      [⟨.atLeast, "24.4"⟩, alphaSpecifier, ⟨.less, "24.6"⟩], some []⟩ := by decide +kernel
  have warns : entryWarning? .release ⟨["cudf"], []⟩
      (.scalar (.text spaced) .doubleQuoted ⟨4, 48⟩) =
        some ⟨⟨4, 48⟩, "remove alpha spec for RAPIDS package cudf",
          [⟨⟨4, 48⟩, "\"cudf[a;b,c]>=24.4,<24.6; \""⟩], []⟩ := by decide +kernel
  obtain ⟨-, -, readsWithout, more⟩ := written_reads_back reads
  obtain ⟨written, -, -, -, rfl, -, -, -, -, fine⟩ := more .release ⟨["cudf"], []⟩ _ _ rfl warns
  exact ⟨reads, warns, readsWithout, fine _ rfl⟩

end AlphaSpec

end SourceLint
