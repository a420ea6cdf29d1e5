/-
This file says when the long text of a license is found again after the fix has taken one out. The
text is looked for under the identifier that a header has, and taken out once; so the next run finds
one exactly if the demanded license is the one whose text is known, and that text stands below the
place where the header ended before.
-/
import SourceLint.Proofs.Check.CopyrightConversion

namespace SourceLint.Copyright

/-! ### What is said on years -/

/-- What is said on the years of headers. -/
def yearMessages : List Text :=
  ["no copyright notice found", "copyright is out of date",
    "copyright is not out of date and should not be updated"]

theorem message_of_mem_yearWarnings (year : Nat) (headers : List Header) :
    ∀ warning ∈ yearWarnings year headers, warning.message ∈ yearMessages := by
  rw [yearWarnings.eq_def]
  split
  · exact List.forall_mem_singleton.mpr List.mem_cons_self
  · dsimp only
    split
    · simp
    · exact List.forall_mem_singleton.mpr (List.mem_cons_of_mem _ List.mem_cons_self)

theorem message_of_mem_revertWarnings (change : Change) (content oldContent : Text)
    (old new : List Header) : ∀ warning ∈ revertWarnings change content oldContent old new,
      warning.message ∈ yearMessages := by
  intro warning member
  obtain ⟨⟨oldHeader, header⟩, _, warns⟩ := List.mem_filterMap.mp member
  dsimp only [revertWarning?] at warns
  split at warns
  · cases warns
  · cases warns
    exact List.mem_cons_of_mem _ (List.mem_cons_of_mem _ List.mem_cons_self)

/-- What is said on the years of headers, if the search in the old text completes. -/
theorem exists_historyWarnings_eq (year : Nat) (change : Change) (content : Text)
    (headers : List Header)
    (oldFinds : ∀ oldContent, change.oldContent = some oldContent →
      ∃ oldHeaders, Header.all (Lines.ofText oldContent) = .ok oldHeaders) :
    ∃ years, (if change.oldContent = some content then .ok []
        else historyWarnings year change content headers) = .ok years ∧
      ∀ warning ∈ years, warning.message ∈ yearMessages := by
  split
  · exact ⟨[], rfl, by simp⟩
  · rw [historyWarnings]
    cases isOld : change.oldContent with
    | none => exact ⟨_, rfl, message_of_mem_yearWarnings year headers⟩
    | some oldContent =>
      obtain ⟨oldHeaders, oldFinds⟩ := oldFinds oldContent isOld
      simp only [oldFinds, bind, Except.bind]
      split
      · exact ⟨_, rfl, message_of_mem_revertWarnings change content oldContent oldHeaders headers⟩
      · exact ⟨_, rfl, message_of_mem_yearWarnings year headers⟩

/-! ### What is said on tags -/

/-- A header that was written with tags has everything but that long text may be left. -/
theorem Converted.spdxWarnings_eq {content identifier fixed : Text} {first header : Header}
    {others rest : List Header}
    (converted : Converted content first others identifier fixed header rest) :
    spdxWarnings identifier header = longFormWarnings header := by
  obtain ⟨start, isTag⟩ := Option.isSome_iff_exists.mp converted.tag
  obtain ⟨license, isLicense, same⟩ := converted.license
  rw [spdxWarnings, tagWarnings, licenseWarnings, isTag, isLicense]
  dsimp only
  rw [if_pos same, List.nil_append, List.nil_append]

theorem exists_removal_iff (header : Header) :
    (∃ warning ∈ longFormWarnings header, warning.message = "remove long-form copyright text") ↔
      header.longForm.isSome = true := by
  rw [longFormWarnings]
  cases header.longForm with
  | none => simp
  | some longForm => simp

/-- The removal of a long text is demanded among what is said on the tags of the first header. -/
theorem exists_removal_of_force (policy : Policy) (force : policy.forceSpdx = true) (year : Nat)
    (change : Change) (filename content : Text) (regions : List Region) (headers : List Header)
    (finds : Header.all (Lines.ofText content) = .ok headers)
    (oldFinds : ∀ oldContent, change.oldContent = some oldContent →
      ∃ oldHeaders, Header.all (Lines.ofText oldContent) = .ok oldHeaders) :
    ∃ warnings, check policy year change ⟨filename, Lines.ofText content, regions⟩ = .ok warnings ∧
      ((∃ warning ∈ warnings, warning.message = "remove long-form copyright text") ↔
        ∃ warning ∈ (headers.head?.map (spdxWarnings policy.identifier)).getD [],
          warning.message = "remove long-form copyright text") := by
  have unlike : Text.ofString "remove long-form copyright text" ∉ yearMessages := by decide
  obtain ⟨years, history, messages⟩ :=
    exists_historyWarnings_eq year change content headers oldFinds
  have checks := check_eq_of_demands policy year change filename content regions headers finds
    (Or.inl force)
  rw [history] at checks
  refine ⟨_, checks, ?_, ?_⟩
  · rintro ⟨warning, member, isRemoval⟩
    rcases List.mem_append.mp member with isYear | isTag
    · exact absurd (isRemoval ▸ messages warning isYear) unlike
    · exact ⟨warning, isTag, isRemoval⟩
  · rintro ⟨warning, isTag, isRemoval⟩
    exact ⟨warning, List.mem_append_right _ isTag, isRemoval⟩

/-! ### The check -/

/-- When a file is checked again that was fixed while it was unchanged, the removal of a long text
is demanded once more exactly if the demanded license is the one whose text is known, and that text
stands below the place where the first header ended before the fix. -/
theorem removal_again_iff (policy : Policy) (force : policy.forceSpdx = true) (year : Nat)
    (change : Change) (filename content : Text) (regions : List Region) (headers : List Header)
    (finds : Header.all (Lines.ofText content) = .ok headers)
    (unchanged : change.oldContent = some content)
    (isIdentifier : IsIdentifier policy.identifier)
    (notReserved : policy.identifier ∉ LicenseEntry.reservedWords) :
    ∃ warnings, check policy year change ⟨filename, Lines.ofText content, regions⟩ = .ok warnings ∧
      ((∀ warning ∈ warnings,
          Source.isEnabled ⟨filename, Lines.ofText content, regions⟩ warning = true) →
        ∃ fixed, (⟨⟨filename, Lines.ofText content, regions⟩, warnings⟩ : Linter).fix = .ok fixed ∧
          ∀ (laterYear : Nat) (later : Change),
            (∀ oldContent, later.oldContent = some oldContent →
              ∃ oldHeaders, Header.all (Lines.ofText oldContent) = .ok oldHeaders) →
            ∀ (laterName : Text) (laterRegions : List Region), ∃ again,
              check policy laterYear later ⟨laterName, Lines.ofText fixed, laterRegions⟩ =
                  .ok again ∧
                ((∃ warning ∈ again, warning.message = "remove long-form copyright text") ↔
                  policy.identifier = "Apache-2.0" ∧
                    ∃ first ∈ headers.head?, LicenseBehind content first)) := by
  cases headers with
  | nil =>
    refine ⟨[], ?_, fun _ => ⟨content, ?_, ?_⟩⟩
    · rw [check_eq_of_demands policy year change filename content regions [] finds (Or.inl force),
        if_pos unchanged]
      rfl
    · exact Linter.fix_eq_splice _ [] (by simp) [] (List.Perm.refl _) (Nat.zero_le _) List.nodup_nil
    · intro laterYear later oldFinds laterName laterRegions
      obtain ⟨again, checks, isRemoval⟩ := exists_removal_of_force policy force laterYear later
        laterName content laterRegions [] finds oldFinds
      exact ⟨again, checks, isRemoval.trans (by simp)⟩
  | cons first others =>
    obtain ⟨checks, fixing⟩ := fix_of_unchanged policy force year change filename content regions
      first others finds unchanged
    obtain ⟨header, rest, converted⟩ :=
      exists_converted ((Header.all_eq_ok_iff _ _).mp finds) isIdentifier notReserved
    refine ⟨_, checks, fun enabled => ⟨_, fixing enabled, ?_⟩⟩
    intro laterYear later oldFinds laterName laterRegions
    obtain ⟨again, laterChecks, isRemoval⟩ := exists_removal_of_force policy force laterYear later
      laterName _ laterRegions _ ((Header.all_eq_ok_iff _ _).mpr converted.searched) oldFinds
    refine ⟨again, laterChecks, isRemoval.trans ?_⟩
    rw [List.head?_cons, Option.map_some, Option.getD_some, converted.spdxWarnings_eq,
      exists_removal_iff, converted.longForm]
    simp

theorem removal_again_longNotice :
    ∃ warnings fixed again,
      check { forceSpdx := true } 2024 ⟨.modified, none, some longNotice⟩
          (Source.ofText "file.txt" longNotice checkName) = .ok warnings ∧
        (∀ warning ∈ warnings,
          (Source.ofText "file.txt" longNotice checkName).isEnabled warning = true) ∧
        (∃ warning ∈ warnings, warning.message = "remove long-form copyright text") ∧
        (⟨Source.ofText "file.txt" longNotice checkName, warnings⟩ : Linter).fix = .ok fixed ∧
        check { forceSpdx := true } 2024 ⟨.modified, none, some longNotice⟩
          (Source.ofText "file.txt" fixed checkName) = .ok again ∧
        ¬∃ warning ∈ again, warning.message = "remove long-form copyright text" := by
  obtain ⟨checks, _⟩ := fix_of_unchanged { forceSpdx := true } rfl 2024
    ⟨.modified, none, some longNotice⟩ "file.txt" longNotice
    (Region.ofLines (Lines.ofText longNotice) checkName) longHeader _ all_longNotice rfl
  obtain ⟨warnings, warns, fixes⟩ := removal_again_iff { forceSpdx := true } rfl 2024
    ⟨.modified, none, some longNotice⟩ "file.txt" longNotice
    (Region.ofLines (Lines.ofText longNotice) checkName) _ all_longNotice rfl
    (by decide +kernel) (by decide)
  cases checks.symm.trans warns
  obtain ⟨fixed, isFixed, later⟩ := fixes isEnabled_longNotice
  obtain ⟨again, laterChecks, isRemoval⟩ := later 2024 ⟨.modified, none, some longNotice⟩
    (fun _ isOld => ⟨_, Option.some.inj isOld ▸ all_longNotice⟩) "file.txt"
    (Region.ofLines (Lines.ofText fixed) checkName)
  refine ⟨_, fixed, again, checks, isEnabled_longNotice, by decide +kernel, isFixed, laterChecks,
    fun removal => ?_⟩
  obtain ⟨_, first, isFirst, behind⟩ := isRemoval.mp removal
  cases isFirst
  revert behind
  decide +kernel

/-- A file whose header names another license than the one whose text stands below it. -/
def relicensed : Text :=
  "# SPDX-FileCopyrightText: Copyright (c) 2024 NVIDIA CORPORATION\n" ++
    "# SPDX-License-Identifier: MIT\n" ++ longText "# " .lf

/-- The header of the file. -/
def relicensedHeader : Header :=
  ⟨26, ⟨14, "2024", none, 37⟩, 63, some 2, "# ", some ⟨66, 25, "MIT"⟩, none⟩

/-- The text of a license is not looked for under another identifier: the first run gives the header
the demanded one, and only the next run finds the text. -/
theorem removal_again_relicensed :
    IsIdentifier defaultLicense ∧
      ∃ warnings fixed again,
        check { forceSpdx := true } 2024 ⟨.modified, none, some relicensed⟩
            (Source.ofText "file.txt" relicensed checkName) = .ok warnings ∧
          (∀ warning ∈ warnings,
            (Source.ofText "file.txt" relicensed checkName).isEnabled warning = true) ∧
          (⟨Source.ofText "file.txt" relicensed checkName, warnings⟩ : Linter).fix = .ok fixed ∧
          check { forceSpdx := true } 2024 ⟨.modified, none, some fixed⟩
            (Source.ofText "file.txt" fixed checkName) = .ok again ∧
          ∃ warning ∈ again, warning.message = "remove long-form copyright text" := by
  have finds : Header.all (Lines.ofText relicensed) = .ok [relicensedHeader] := by decide +kernel
  have enabled : ∀ warning ∈ spdxWarnings defaultLicense relicensedHeader,
      (Source.ofText "file.txt" relicensed checkName).isEnabled warning = true := by decide +kernel
  obtain ⟨checks, fixing⟩ := fix_of_unchanged { forceSpdx := true } rfl 2024
    ⟨.modified, none, some relicensed⟩ "file.txt" relicensed
    (Region.ofLines (Lines.ofText relicensed) checkName) relicensedHeader [] finds rfl
  have fixedFinds : Header.all (Lines.ofText
      (Linter.splice relicensed 0 (ordered defaultLicense relicensedHeader [] []))) =
        .ok [⟨26, ⟨14, "2024", none, 37⟩, 63, some 2, "# ", some ⟨66, 25, "Apache-2.0"⟩,
          some ⟨102, 647⟩⟩] := by decide +kernel
  exact ⟨by decide +kernel, _, _, _, checks, enabled, fixing enabled,
    (fix_of_unchanged { forceSpdx := true } rfl 2024 ⟨.modified, none, some _⟩ "file.txt" _ _ _ _
      fixedFinds rfl).1, _, List.mem_cons_self, rfl⟩

end SourceLint.Copyright
