/-
This file says how far the verdict of the alpha check depends on the spelling of a package. The number
of a CUDA version is taken off a name before the name is brought into its canonical form, and only where
its mark is written in one way. So of two spellings of one package one may have its number taken off and
the other not, and then a release may have the one package among its own and not the other. Spellings that
have the same package before their numbers, or no number that is found, get the same verdict always.
-/
import SourceLint.Proofs.Check.AlphaSpec
import SourceLint.Proofs.PackageName.Canonical

namespace SourceLint

namespace Requirement

variable {lead left right rest : Text}

/-! ### Renamed requirements -/

/-- A requirement with a name that is read where it stands, and with what is read behind the name. -/
theorem ofText?_append {name : Text} (areBlank : ∀ unit ∈ lead, unit.isBlank = true)
    (isName : readName? (name ++ rest) = some name) :
    ofText? (lead ++ (name ++ rest)) =
      let extras := readExtras rest.trimStart
      let body := rest.trimStart.drop extras.length
      (Specifier.listOfText? (body.takeWhile fun unit => unit != (';' : CodeUnit))).map fun specifiers =>
        ⟨name, extras, specifiers,
          match body.dropWhile fun unit => unit != (';' : CodeUnit) with
          | [] => none
          | _ :: marker => some (Text.trim marker)⟩ := by
  obtain ⟨unit, isFirst, begins⟩ := (readName?_spec isName).1
  have start : Text.trimStart (lead ++ (name ++ rest)) = name ++ rest := by
    rw [Text.trimStart, List.dropWhile_append_of_pos areBlank]
    refine Text.trimStart_eq_self fun other isOther => ?_
    rw [List.head?_append, Option.mem_def.mp isFirst] at isOther
    cases Option.some.inj isOther
    exact CodeUnit.not_isBlank_of_isAlphanumeric begins
  simp only [ofText?, start, isName, Option.bind_eq_bind, Option.bind_some, List.drop_left,
    Option.map_eq_bind]
  rfl

theorem name_of_ofText? {name : Text} {requirement : Requirement}
    (areBlank : ∀ unit ∈ lead, unit.isBlank = true) (isName : readName? (name ++ rest) = some name)
    (reads : ofText? (lead ++ (name ++ rest)) = some requirement) : requirement.name = name := by
  rw [ofText?_append areBlank isName] at reads
  obtain ⟨specifiers, -, rfl⟩ := Option.map_eq_some_iff.mp reads
  rfl

/-- Texts that differ in a name only stand for requirements that differ in their names only. -/
theorem ofText?_renamed (areBlank : ∀ unit ∈ lead, unit.isBlank = true)
    (isLeft : readName? (left ++ rest) = some left)
    (isRight : readName? (right ++ rest) = some right) :
    ofText? (lead ++ (right ++ rest)) =
      (ofText? (lead ++ (left ++ rest))).map fun requirement => { requirement with name := right } := by
  rw [ofText?_append areBlank isLeft, ofText?_append areBlank isRight, Option.map_map]
  rfl

end Requirement

namespace AlphaSpec

open Yaml (Node)

variable {mode : Mode} {names : PackageNames} {left right : Text}

/-! ### Verdicts -/

theorem isSome_corrected?_renamed (mode : Mode) (requirement : Requirement) (name : Text) :
    (corrected? mode { requirement with name := name }).isSome =
      (corrected? mode requirement).isSome := by
  cases mode with
  | development =>
    rw [corrected?, corrected?]
    split <;> rfl
  | release =>
    rw [corrected?, corrected?]
    split <;> rfl

/-- An entry is flagged if it is of the project and not as the mode wants it. -/
theorem isSome_entryWarning? (mode : Mode) (names : PackageNames) (text : Text)
    (style : Yaml.ScalarStyle) (span : Span) :
    (entryWarning? mode names (.scalar (.text text) style span)).isSome =
      (Requirement.ofText? text).any fun requirement =>
        names.covers requirement.name && (corrected? mode requirement).isSome := by
  cases reads : Requirement.ofText? text with
  | none => simp [entryWarning?, Node.text?, Node.span?, reads]
  | some requirement =>
    cases covered : names.covers requirement.name <;>
      cases corrects : corrected? mode requirement <;>
        simp [entryWarning?, Node.text?, Node.span?, reads, covered, corrects]

/-- Names that a release has or has not got both get the same verdict, whatever stands behind them. -/
theorem isSome_entryWarning?_renamed {lead rest : Text} {style style' : Yaml.ScalarStyle}
    {span span' : Span} (same : names.covers left = names.covers right)
    (areBlank : ∀ unit ∈ lead, unit.isBlank = true)
    (isLeft : Requirement.readName? (left ++ rest) = some left)
    (isRight : Requirement.readName? (right ++ rest) = some right) :
    (entryWarning? mode names (.scalar (.text (lead ++ (left ++ rest))) style span)).isSome =
      (entryWarning? mode names (.scalar (.text (lead ++ (right ++ rest))) style' span')).isSome := by
  rw [isSome_entryWarning?, isSome_entryWarning?, Requirement.ofText?_renamed areBlank isLeft isRight]
  cases reads : Requirement.ofText? (lead ++ (left ++ rest)) with
  | none => rfl
  | some requirement =>
    rw [Option.map_some, Option.any_some, Option.any_some,
      isSome_corrected?_renamed mode requirement right, ← same,
      Requirement.name_of_ofText? areBlank isLeft reads]

/-- Which package a name is looked up as. -/
theorem covers_eq_of_beforeCudaNumber? (same : PackageName.canonical left = PackageName.canonical right)
    (sameBase : (PackageName.beforeCudaNumber? left).map PackageName.canonical =
      (PackageName.beforeCudaNumber? right).map PackageName.canonical) :
    names.covers left = names.covers right := by
  have lookedUp : PackageName.canonical (PackageName.withoutCudaNumber names.cudaNumbered left) =
      PackageName.canonical (PackageName.withoutCudaNumber names.cudaNumbered right) := by
    rw [PackageName.withoutCudaNumber, PackageName.withoutCudaNumber]
    cases isLeft : PackageName.beforeCudaNumber? left with
    | none =>
      rw [isLeft, Option.map_none, eq_comm, Option.map_eq_none_iff] at sameBase
      rw [sameBase]
      exact same
    | some base =>
      rw [isLeft, Option.map_some, eq_comm, Option.map_eq_some_iff] at sameBase
      obtain ⟨other, isRight, sameBase⟩ := sameBase
      rw [isRight]
      dsimp only
      rw [sameBase]
      split
      · exact sameBase.symm
      · exact same
  rw [PackageNames.covers, PackageNames.covers, lookedUp]

/-- A release of one package, which is also built for each version of CUDA. -/
def releaseOf (package : Text) : Release := ⟨[], [⟨package, true, true⟩]⟩

theorem covers_releaseOf {name package : Text}
    (units : ∀ unit ∈ name, PackageName.isNameUnit unit = true)
    (differs : package ≠ PackageName.canonical name) :
    (PackageNames.ofRelease (releaseOf package)).covers name = true ↔
      PackageName.NumbersPackage name package := by
  have prerelease : (PackageNames.ofRelease (releaseOf package)).prerelease = [package] := rfl
  have cudaNumbered : (PackageNames.ofRelease (releaseOf package)).cudaNumbered = [package] := rfl
  rw [PackageName.numbersPackage_iff units, PackageNames.covers, prerelease, cudaNumbered,
    PackageName.withoutCudaNumber]
  cases PackageName.beforeCudaNumber? name with
  | none => simp [Ne.symm differs]
  | some base =>
    by_cases isBase : PackageName.canonical base = package
    · simp [isBase]
    · simp [isBase, Ne.symm differs]

/-- A name on its own is flagged while a release is developed that has it. -/
theorem isSome_entryWarning?_name {name : Text} (isName : Requirement.readName? name = some name)
    (names : PackageNames) (style : Yaml.ScalarStyle) (span : Span) :
    (entryWarning? .development names (.scalar (.text ([] ++ (name ++ []))) style span)).isSome =
      names.covers name := by
  have alone : Requirement.readName? (name ++ []) = some name := by rwa [List.append_nil]
  rw [isSome_entryWarning?, Requirement.ofText?_append (List.forall_mem_nil _) alone]
  exact Bool.and_true _

/-- Two spellings of a package get the same verdict in each release, each mode and whatever stands
around them exactly if they have their CUDA numbers, as far as these are found, behind spellings of the
same package. -/
theorem sameVerdict_iff (isLeft : Requirement.readName? left = some left)
    (isRight : Requirement.readName? right = some right)
    (same : PackageName.canonical left = PackageName.canonical right) :
    (∀ (release : Release) (mode : Mode) (lead rest : Text) (style style' : Yaml.ScalarStyle)
        (span span' : Span),
      (∀ package ∈ release.packages, PackageName.canonical package.name = package.name) →
      (∀ unit ∈ lead, unit.isBlank = true) →
      Requirement.readName? (left ++ rest) = some left →
      Requirement.readName? (right ++ rest) = some right →
      (entryWarning? mode (.ofRelease release)
          (.scalar (.text (lead ++ (left ++ rest))) style span)).isSome =
        (entryWarning? mode (.ofRelease release)
          (.scalar (.text (lead ++ (right ++ rest))) style' span')).isSome) ↔
      ∀ package, PackageName.NumbersPackage left package ↔
        PackageName.NumbersPackage right package := by
  have unitsLeft := (Requirement.readName?_spec isLeft).2.2
  have unitsRight := (Requirement.readName?_spec isRight).2.2
  constructor
  · intro verdicts package
    have told (isCanonical : PackageName.canonical package = package)
        (differs : package ≠ PackageName.canonical left) :
        PackageName.NumbersPackage left package ↔ PackageName.NumbersPackage right package := by
      have verdict := verdicts (releaseOf package) .development [] [] .bare .bare (.point 0) (.point 0)
        (List.forall_mem_singleton.mpr isCanonical) (List.forall_mem_nil _)
        (by rwa [List.append_nil]) (by rwa [List.append_nil])
      rw [isSome_entryWarning?_name isLeft, isSome_entryWarning?_name isRight] at verdict
      rw [← covers_releaseOf unitsLeft differs, ← covers_releaseOf unitsRight (same ▸ differs), verdict]
    constructor
    · intro numbers
      exact (told (numbers.canonical_eq unitsLeft) (numbers.ne_canonical unitsLeft)).mp numbers
    · intro numbers
      exact (told (numbers.canonical_eq unitsRight)
        (same ▸ numbers.ne_canonical unitsRight)).mpr numbers
  · intro sameBases release mode lead rest style style' span span' _ areBlank readsLeft readsRight
    refine isSome_entryWarning?_renamed (covers_eq_of_beforeCudaNumber? same ?_) areBlank readsLeft
      readsRight
    refine Option.ext fun package => ?_
    exact (PackageName.numbersPackage_iff unitsLeft package).symm.trans
      ((sameBases package).trans (PackageName.numbersPackage_iff unitsRight package))

/-- Two spellings of a package for one version of CUDA that differ before the mark only. -/
def spellings : Text × Text := ("Dask_CUDF-cu12", "dask.cudf-cu12")

theorem sameVerdict_iff_beforeMark :
    PackageName.canonical spellings.1 = PackageName.canonical spellings.2 ∧
      (∀ package, PackageName.NumbersPackage spellings.1 package ↔
        PackageName.NumbersPackage spellings.2 package) ∧
      (entryWarning? .development (.ofRelease (releaseOf "dask-cudf"))
          (.scalar (.text ([] ++ (spellings.1 ++ Text.ofString ">=24.8"))) .bare ⟨0, 20⟩)).isSome = true ∧
      (entryWarning? .development (.ofRelease (releaseOf "dask-cudf"))
          (.scalar (.text ([] ++ (spellings.2 ++ Text.ofString ">=24.8"))) .bare ⟨0, 20⟩)).isSome = true := by
  have isLeft : Requirement.readName? spellings.1 = some spellings.1 := by decide +kernel
  have isRight : Requirement.readName? spellings.2 = some spellings.2 := by decide +kernel
  have same : PackageName.canonical spellings.1 = PackageName.canonical spellings.2 := by
    decide +kernel
  have sameBases (package : Text) : PackageName.NumbersPackage spellings.1 package ↔
      PackageName.NumbersPackage spellings.2 package := by
    have found : (PackageName.beforeCudaNumber? spellings.1).map PackageName.canonical =
        (PackageName.beforeCudaNumber? spellings.2).map PackageName.canonical := by decide +kernel
    rw [PackageName.numbersPackage_iff (Requirement.readName?_spec isLeft).2.2,
      PackageName.numbersPackage_iff (Requirement.readName?_spec isRight).2.2, found]
  have flagged : (entryWarning? .development (.ofRelease (releaseOf "dask-cudf"))
      (.scalar (.text ([] ++ (spellings.1 ++ Text.ofString ">=24.8"))) .bare ⟨0, 20⟩)).isSome = true := by
    decide +kernel
  have verdict := (sameVerdict_iff isLeft isRight same).mpr sameBases (releaseOf "dask-cudf")
    .development [] ">=24.8" .bare .bare ⟨0, 20⟩ ⟨0, 20⟩ (by decide +kernel) (List.forall_mem_nil _)
    (by decide +kernel) (by decide +kernel)
  exact ⟨same, sameBases, flagged, verdict ▸ flagged⟩

/-- With an underscore in its mark the CUDA number of a package is not taken off. -/
theorem entryWarning?_underscore :
    PackageName.canonical "cudf-cu12" = PackageName.canonical "cudf_cu12" ∧
      PackageName.canonical "cudf" = "cudf" ∧
      (entryWarning? .development (.ofRelease (releaseOf "cudf"))
        (.scalar (.text "cudf-cu12") .bare ⟨0, 9⟩)).isSome = true ∧
      entryWarning? .development (.ofRelease (releaseOf "cudf"))
        (.scalar (.text "cudf_cu12") .bare ⟨0, 9⟩) = none := by
  decide +kernel

end AlphaSpec

end SourceLint
