/-
This file says when the fix of an owners file leaves its lines in the required order. The lines of
the files that were not mentioned come last, in the order of the requirements; so a line that stands
in the text comes before each of them, whether or not it should.
-/
import SourceLint.Proofs.Check.CodeownersFix

namespace SourceLint.Codeowners

/-- Requirements in an order that they allow: none comes before a file that it should follow. -/
def InOrder (requirements : List Requirement) : Prop :=
  requirements.Pairwise fun earlier later => later.file ∉ earlier.after

instance (requirements : List Requirement) : Decidable (InOrder requirements) :=
  inferInstanceAs (Decidable (List.Pairwise _ _))

/-- The lines that required files have begin one after another. -/
theorem pairwise_foundLines (requirements : List Requirement) (content : Text) :
    (foundLines requirements (assignments (Lines.ofText content))).Pairwise
      fun earlier later => earlier.span.start < later.span.start := by
  rw [foundLines, assignments, List.filterMap_filterMap, List.pairwise_filterMap]
  refine (Lines.stop_lt_start content).imp fun {line next} apart found isFound other isOther => ?_
  obtain ⟨assignment, reads, isFound⟩ := Option.bind_eq_some_iff.mp isFound
  obtain ⟨_, _, rfl⟩ := Option.map_eq_some_iff.mp isFound
  obtain ⟨nextAssignment, nextReads, isOther⟩ := Option.bind_eq_some_iff.mp isOther
  obtain ⟨_, _, rfl⟩ := Option.map_eq_some_iff.mp isOther
  have here := (assignment.within_of_ofLine? line reads).start_eq
  have there := (nextAssignment.within_of_ofLine? next nextReads).start_eq
  have forward := line.start_le_stop
  dsimp only
  omega

theorem orderWarning?_eq_none_iff (found : List Found) (line : Found) (earlier : Text) :
    orderWarning? found line earlier = none ↔
      ∀ other ∈ found, other.requirement.file = earlier → ¬line.span.start < other.span.start := by
  rw [orderWarning?]
  simp [List.filter_eq_nil_iff]

/-- There is no warning on the order of lines that begin one after another if their requirements
are in order. -/
theorem orderWarnings_eq_nil_iff {found : List Found}
    (rising : found.Pairwise fun earlier later => earlier.span.start < later.span.start) :
    orderWarnings found = [] ↔ InOrder (found.map Found.requirement) := by
  have silent : orderWarnings found = [] ↔ ∀ line ∈ found, ∀ other ∈ found,
      line.span.start < other.span.start →
        other.requirement.file ∉ line.requirement.after := by
    simp only [orderWarnings, List.flatMap_eq_nil_iff, List.filterMap_eq_nil_iff,
      orderWarning?_eq_none_iff]
    exact ⟨fun all line isLine other isOther less isAfter =>
        all line isLine _ isAfter other isOther rfl less,
      fun all line isLine earlier isAfter other isOther same less =>
        all line isLine other isOther less (same ▸ isAfter)⟩
  rw [silent, InOrder, List.pairwise_map]
  constructor
  · intro all
    exact rising.imp_of_mem fun {line other} isLine isOther less =>
      all line isLine other isOther less
  · intro inOrder line isLine other isOther less
    obtain ⟨place, inside, rfl⟩ := List.mem_iff_getElem.mp isLine
    obtain ⟨otherPlace, otherInside, rfl⟩ := List.mem_iff_getElem.mp isOther
    rw [List.pairwise_iff_getElem] at rising inOrder
    rcases Nat.lt_trichotomy place otherPlace with before | rfl | behind
    · exact inOrder place otherPlace inside otherInside before
    · exact absurd less (Nat.lt_irrefl _)
    · exact absurd less (Nat.lt_asymm (rising otherPlace place otherInside inside behind))

/-- If the lines of an owners file are in order, then those of the fixed file are so, too, if no line
should come after one that is missing. -/
theorem fix_keeps_order_iff (project : Text) (requirements : List Requirement)
    (distinct : (requirements.map Requirement.file).Nodup)
    (canBeMet : ∀ requirement ∈ requirements, requirement.CanBeMet project)
    (inOrder : InOrder requirements) (content filename : Text) (regions : List Region)
    (enabled : ∀ warning ∈ check project requirements ⟨filename, Lines.ofText content, regions⟩,
      (⟨filename, Lines.ofText content, regions⟩ : Source).isEnabled warning = true)
    (ordered : orderWarnings (foundLines requirements (assignments (Lines.ofText content))) = []) :
    ∃ fixed,
      (⟨⟨filename, Lines.ofText content, regions⟩,
          check project requirements ⟨filename, Lines.ofText content, regions⟩⟩ : Linter).fix =
        .ok fixed ∧
      (orderWarnings (foundLines requirements (assignments (Lines.ofText fixed))) = [] ↔
        ∀ present ∈ requirementsOn requirements content,
          ∀ missing ∈ missingFrom requirements content, missing.file ∉ present.after) := by
  obtain ⟨mend, remakes⟩ := exists_remakes project requirements
  have lines := remakes.physicalLines_fixed canBeMet content
  refine ⟨_, remakes.fix_eq content filename regions enabled, ?_⟩
  rw [orderWarnings_eq_nil_iff (pairwise_foundLines _ _), map_requirement_foundLines] at ordered ⊢
  have missingInOrder : InOrder (missingFrom requirements content) :=
    inOrder.sublist List.filter_sublist
  rw [requirementsOn_fixed canBeMet distinct remakes lines, InOrder, List.pairwise_append]
  exact ⟨fun holds => holds.2.2, fun holds => ⟨ordered, missingInOrder, holds⟩⟩

/-- An owners file that mentions one of the two required files, which should come last. -/
def lonelyProject : Text := "pyproject.toml @rapidsai/ci-codeowners\n"

theorem fix_keeps_order_lonelyProject :
    let source := Source.ofText "CODEOWNERS" lonelyProject checkName
    let warnings := check "cudf" standardRequirements source
    ((standardRequirements.map Requirement.file).Nodup ∧
        (∀ requirement ∈ standardRequirements, requirement.CanBeMet "cudf") ∧
        InOrder standardRequirements ∧ (∀ warning ∈ warnings, source.isEnabled warning = true) ∧
        orderWarnings
          (foundLines standardRequirements (assignments (Lines.ofText lonelyProject))) = []) ∧
      ∃ fixed, (⟨source, warnings⟩ : Linter).fix = .ok fixed ∧
        (orderWarnings (foundLines standardRequirements (assignments (Lines.ofText fixed))) = [] ↔
          ∀ present ∈ requirementsOn standardRequirements lonelyProject,
            ∀ missing ∈ missingFrom standardRequirements lonelyProject,
              missing.file ∉ present.after) := by
  have distinct : (standardRequirements.map Requirement.file).Nodup := by decide
  have canBeMet : ∀ requirement ∈ standardRequirements, requirement.CanBeMet "cudf" := by
    decide +kernel
  have inOrder : InOrder standardRequirements := by decide
  have enabled : ∀ warning ∈ check "cudf" standardRequirements
      (Source.ofText "CODEOWNERS" lonelyProject checkName),
      (Source.ofText "CODEOWNERS" lonelyProject checkName).isEnabled warning = true := by
    decide +kernel
  have ordered : orderWarnings
      (foundLines standardRequirements (assignments (Lines.ofText lonelyProject))) = [] := by
    decide +kernel
  exact ⟨⟨distinct, canBeMet, inOrder, enabled, ordered⟩, fix_keeps_order_iff "cudf"
    standardRequirements distinct canBeMet inOrder lonelyProject "CODEOWNERS" _ enabled ordered⟩

/-- The file that is missing should come first, but is added last. -/
theorem orderWarnings_fixed_lonelyProject :
    let source := Source.ofText "CODEOWNERS" lonelyProject checkName
    let warnings := check "cudf" standardRequirements source
    let fixed : Text := lonelyProject ++ "CMakeLists.txt @rapidsai/cudf-cmake-codeowners\n"
    InOrder standardRequirements ∧ (∀ warning ∈ warnings, source.isEnabled warning = true) ∧
      orderWarnings
        (foundLines standardRequirements (assignments (Lines.ofText lonelyProject))) = [] ∧
      (⟨source, warnings⟩ : Linter).fix = .ok fixed ∧
      check "cudf" standardRequirements (Source.ofText "CODEOWNERS" fixed checkName) =
        [⟨⟨0, 14⟩, "file 'pyproject.toml' should come after 'CMakeLists.txt'", [],
          [⟨⟨39, 53⟩, "file 'CMakeLists.txt' is here"⟩]⟩] := by
  have enabled : ∀ warning ∈ check "cudf" standardRequirements
      (Source.ofText "CODEOWNERS" lonelyProject checkName),
      (Source.ofText "CODEOWNERS" lonelyProject checkName).isEnabled warning = true := by
    decide +kernel
  refine ⟨by decide, enabled, by decide +kernel, ?_, by decide +kernel⟩
  rw [Source.ofText, fix_check_eq_splice _ _ _ _ _ enabled]
  decide +kernel

end SourceLint.Codeowners
