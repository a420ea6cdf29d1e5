/-
This file proves that the warnings on an owners file are sound. The owners on a line stand in a row
after the file pattern, each with the blanks before it, so that taking some of them out and adding
others after the last concerns places in a row; the lines stand in a row themselves, and what is
missing is added at the end of the file.
-/
import SourceLint.Proofs.Codeowners.Words
import SourceLint.Proofs.Linter.Placed
import SourceLint.Proofs.Linter.Splice

namespace SourceLint.Codeowners

/-! ### The owners on a line -/

/-- Owners stand one after another between two positions, each with the blanks before it. -/
structure InRow (limit position : Nat) (owners : List Owner) : Prop where
  spans : Span.Row 0 limit position (owners.map Owner.spanWithBlanks)
  stop_eq : ∀ owner ∈ owners, owner.spanWithBlanks.stop = owner.span.stop

theorem inRow_ownersFrom (fuel position : Nat) (text : Text) :
    InRow (position + text.length) position (ownersFrom fuel position text) := by
  induction fuel generalizing position text with
  | zero => exact ⟨Nat.le_add_right _ _, List.forall_mem_nil _⟩
  | succ fuel inductionHypothesis =>
    rw [ownersFrom]
    dsimp only
    split
    case isTrue => exact ⟨Nat.le_add_right _ _, List.forall_mem_nil _⟩
    case isFalse proper =>
      generalize blanks_eq : (text.takeWhile CodeUnit.isBlank).length = blanks at proper ⊢
      have blanksBound : blanks ≤ text.length := by
        rw [← blanks_eq]
        exact (List.takeWhile_sublist _).length_le
      have wordBound := wordLength_le (text.drop blanks)
      generalize wordLength (text.drop blanks) = length at proper wordBound ⊢
      rw [List.length_drop] at wordBound
      have others := inductionHypothesis (position + blanks + length)
        ((text.drop blanks).drop length)
      have limit : position + blanks + length + ((text.drop blanks).drop length).length =
          position + text.length := by
        rw [List.length_drop, List.length_drop]
        omega
      rw [limit] at others
      have forward : position ≤ position + blanks + length := by omega
      exact ⟨⟨Nat.le_refl _, forward, others.spans⟩,
        List.forall_mem_cons.mpr ⟨rfl, others.stop_eq⟩⟩

/-! ### An assignment on a line -/

/-- The places of an assignment lie in a line: those of the owners follow the file pattern. -/
structure Assignment.Within (assignment : Assignment) (line : Line) : Prop where
  start_eq : assignment.fileSpan.start = line.start
  proper : assignment.fileSpan.start < assignment.fileSpan.stop
  owners : InRow line.stop assignment.fileSpan.stop assignment.owners

theorem Assignment.within_of_ofLine? (line : Line) (assignment : Assignment)
    (reads : Assignment.ofLine? line.text line.start = some assignment) :
    assignment.Within line := by
  rw [ofLine?] at reads
  split at reads
  case isTrue => cases reads
  case isFalse proper =>
    cases reads
    simp only [Bool.or_eq_true, decide_eq_true_eq, not_or] at proper
    have bound := wordLength_le line.text
    refine ⟨rfl, Nat.lt_add_of_pos_right (Nat.pos_of_ne_zero proper.1), ?_⟩
    have row := inRow_ownersFrom line.text.length (line.start + wordLength line.text)
      (line.text.drop (wordLength line.text))
    have limit : line.start + wordLength line.text +
        (line.text.drop (wordLength line.text)).length = line.stop := by
      rw [List.length_drop, Line.stop]
      omega
    rwa [limit] at row

/-- The file pattern of an assignment is placed. -/
theorem Assignment.Within.placed {assignment : Assignment} {line : Line}
    (within : assignment.Within line) (content : Text)
    (member : line ∈ (Lines.ofText content).all) : assignment.fileSpan.PlacedIn content :=
  .of_line line member (Nat.le_of_eq within.start_eq.symm) (Nat.le_of_lt within.proper)
    within.owners.spans.le

/-- The replacement that takes an owner out. -/
def Owner.removal (owner : Owner) : Replacement := ⟨owner.spanWithBlanks, []⟩

/-- Some owners are taken out, and something may be added after the last owner. -/
theorem ownerReplacements_eq (project : Text) (requirement : Requirement)
    (assignment : Assignment) :
    ∃ (removed : List Owner) (added : List Replacement), removed.Sublist assignment.owners ∧
      ownerReplacements project requirement assignment =
        removed.map Owner.removal ++ added ∧
      (added = [] ∨ ∃ last newText, assignment.owners.getLast? = some last ∧
        added = [⟨.point last.span.stop, newText⟩]) := by
  have extra : (if requirement.allowsExtra then []
      else assignment.owners.filter fun owner =>
        !(requirement.ownerNames project).contains owner.name).Sublist assignment.owners := by
    split
    · exact List.nil_sublist _
    · exact List.filter_sublist
  rw [ownerReplacements]
  split
  case h_1 => exact ⟨_, [], extra, (List.append_nil _).symm, Or.inl rfl⟩
  case h_2 last isLast =>
    split
    · exact ⟨_, [], extra, (List.append_nil _).symm, Or.inl rfl⟩
    · exact ⟨_, _, extra, rfl, Or.inr ⟨last, _, isLast, rfl⟩⟩

/-- The replacements for an assignment stand in a row between the file pattern and the end of the
line. -/
theorem Assignment.Within.replacements {assignment : Assignment} {line : Line}
    (within : assignment.Within line) (project : Text) (requirement : Requirement) :
    Span.Row 0 line.stop assignment.fileSpan.stop
      ((ownerReplacements project requirement assignment).map Replacement.span) := by
  have row := within.owners.spans
  obtain ⟨removed, added, sublist, whole, addition⟩ :=
    ownerReplacements_eq project requirement assignment
  have taken : (removed.map Owner.removal).map Replacement.span =
      removed.map Owner.spanWithBlanks := List.map_map
  rw [whole, List.map_append, taken]
  rcases addition with rfl | ⟨last, newText, isLast, rfl⟩
  · rw [List.map_nil, List.append_nil]
    exact row.sublist (sublist.map _)
  · have isLastSpan : (assignment.owners.map Owner.spanWithBlanks).getLast? =
        some last.spanWithBlanks := by rw [List.getLast?_map, isLast, Option.map_some]
    have isOwner := List.mem_of_getLast? isLast
    have upToLast := (row.stop_last isLastSpan).sublist (sublist.map _)
    rw [within.owners.stop_eq last isOwner] at upToLast
    refine upToLast.append ⟨Nat.le_refl _, Nat.le_refl _, ?_⟩
    exact within.owners.stop_eq last isOwner ▸ (row.stop_le (List.mem_map_of_mem isOwner)).2

/-- Each of the replacements for an assignment is in its line. -/
theorem Assignment.Within.bounds {assignment : Assignment} {line : Line}
    (within : assignment.Within line) (project : Text) (requirement : Requirement)
    (replacement : Replacement)
    (member : replacement ∈ ownerReplacements project requirement assignment) :
    line.start ≤ replacement.span.start ∧ replacement.span.start ≤ replacement.span.stop ∧
      replacement.span.stop ≤ line.stop := by
  have row := within.replacements project requirement
  have isSpan := List.mem_map_of_mem (f := Replacement.span) member
  refine ⟨?_, row.stop_le isSpan⟩
  calc
    line.start = assignment.fileSpan.start := within.start_eq.symm
    _ ≤ assignment.fileSpan.stop := Nat.le_of_lt within.proper
    _ ≤ replacement.span.start := row.start_le isSpan

/-! ### The whole file -/

variable (content : Text)

/-- Where the assignments of a text stand. -/
theorem exists_line_of_mem_assignments (assignment : Assignment)
    (member : assignment ∈ assignments (Lines.ofText content)) :
    ∃ line ∈ (Lines.ofText content).all, assignment.Within line := by
  obtain ⟨line, isLine, reads⟩ := List.mem_filterMap.mp member
  exact ⟨line, isLine, assignment.within_of_ofLine? line reads⟩

theorem ownersWarning?_eq_some (project : Text) (requirements : List Requirement)
    (assignment : Assignment) (warning : Warning)
    (warns : ownersWarning? project requirements assignment = some warning) :
    ∃ requirement, warning.span = assignment.fileSpan ∧ warning.notes = [] ∧
      warning.replacements = ownerReplacements project requirement assignment := by
  obtain ⟨requirement, _, rest⟩ := Option.bind_eq_some_iff.mp warns
  dsimp only at rest
  split at rest
  · cases rest
  · cases rest
    exact ⟨requirement, rfl, rfl, rfl⟩

/-- The replacements on the lines of a text are in a row. -/
theorem pairwise_ownersWarnings (project : Text) (requirements : List Requirement) :
    (((assignments (Lines.ofText content)).filterMap
        (ownersWarning? project requirements)).flatMap Warning.replacements).Pairwise
      fun earlier later => earlier.span.stop ≤ later.span.start := by
  refine List.pairwise_flatMap.mpr ⟨?_, ?_⟩
  · intro warning member
    obtain ⟨assignment, isAssignment, warns⟩ := List.mem_filterMap.mp member
    obtain ⟨line, isLine, within⟩ := exists_line_of_mem_assignments content assignment isAssignment
    obtain ⟨requirement, _, _, replacements⟩ := ownersWarning?_eq_some _ _ _ _ warns
    rw [replacements]
    exact List.pairwise_map.mp (within.replacements project requirement).pairwise
  · rw [assignments, List.filterMap_filterMap, List.pairwise_filterMap]
    refine (Lines.stop_lt_start content).imp ?_
    intro line next apart warning warns other otherWarns earlier isEarlier later isLater
    obtain ⟨assignment, reads, warns⟩ := Option.bind_eq_some_iff.mp warns
    obtain ⟨_, _, _, replacements⟩ := ownersWarning?_eq_some _ _ _ _ warns
    rw [replacements] at isEarlier
    have first := (assignment.within_of_ofLine? line reads).bounds _ _ earlier isEarlier
    obtain ⟨assignment, reads, otherWarns⟩ := Option.bind_eq_some_iff.mp otherWarns
    obtain ⟨_, _, _, replacements⟩ := ownersWarning?_eq_some _ _ _ _ otherWarns
    rw [replacements] at isLater
    have second := (assignment.within_of_ofLine? next reads).bounds _ _ later isLater
    omega

theorem placed_of_mem_ownersWarnings (project : Text) (requirements : List Requirement)
    (warning : Warning)
    (member : warning ∈ (assignments (Lines.ofText content)).filterMap
      (ownersWarning? project requirements)) : warning.PlacedIn content := by
  obtain ⟨assignment, isAssignment, warns⟩ := List.mem_filterMap.mp member
  obtain ⟨line, isLine, within⟩ := exists_line_of_mem_assignments content assignment isAssignment
  obtain ⟨requirement, span, notes, replacements⟩ := ownersWarning?_eq_some _ _ _ _ warns
  refine .of_parts (span ▸ within.placed content isLine) (by simp [notes]) ?_
  intro replacement isReplacement
  obtain ⟨after, proper, before⟩ :=
    within.bounds project requirement replacement (replacements ▸ isReplacement)
  exact .of_line line isLine after proper before

/-- The warnings on the order of lines propose nothing, and name no place but those of the lines. -/
theorem placed_of_mem_orderWarnings (found : List Found)
    (places : ∀ line ∈ found, line.span.PlacedIn content) (warning : Warning)
    (member : warning ∈ orderWarnings found) :
    warning.PlacedIn content ∧ warning.replacements = [] := by
  obtain ⟨line, isLine, warns⟩ := List.mem_flatMap.mp member
  obtain ⟨earlier, _, warns⟩ := List.mem_filterMap.mp warns
  rw [orderWarning?] at warns
  split at warns
  · cases warns
  · cases warns
    refine ⟨.of_parts (places line isLine) ?_ (by simp), rfl⟩
    intro note isNote
    obtain ⟨other, isLater, rfl⟩ := List.mem_map.mp isNote
    exact places other (List.mem_filter.mp isLater).1

/-- What is missing is added at the end. -/
theorem missingWarning?_cases (project : Text) (requirements : List Requirement)
    (found : List Found) :
    missingWarning? project requirements content found = none ∨
      ∃ message newText, missingWarning? project requirements content found =
        some ⟨.point 0, message, [⟨.point content.length, newText⟩], []⟩ := by
  rw [missingWarning?]
  split
  · exact Or.inl rfl
  · exact Or.inr ⟨_, _, rfl⟩

/-- The assignments to files that need owners. -/
def foundLines (requirements : List Requirement) (assignments : List Assignment) : List Found :=
  assignments.filterMap fun assignment =>
    (requirementFor? requirements assignment).map fun requirement =>
      ⟨requirement, assignment.fileSpan⟩

theorem check_ofText (project : Text) (requirements : List Requirement) (filename : Text)
    (regions : List Region) :
    check project requirements ⟨filename, Lines.ofText content, regions⟩ =
      (assignments (Lines.ofText content)).filterMap (ownersWarning? project requirements) ++
        orderWarnings (foundLines requirements (assignments (Lines.ofText content))) ++
        (missingWarning? project requirements content
          (foundLines requirements (assignments (Lines.ofText content)))).toList := rfl

theorem placed_of_mem_foundLines (requirements : List Requirement) (line : Found)
    (member : line ∈ foundLines requirements (assignments (Lines.ofText content))) :
    line.span.PlacedIn content := by
  obtain ⟨assignment, isAssignment, named⟩ := List.mem_filterMap.mp member
  obtain ⟨requirement, _, rfl⟩ := Option.map_eq_some_iff.mp named
  obtain ⟨place, isLine, within⟩ := exists_line_of_mem_assignments content assignment isAssignment
  exact within.placed content isLine

section

variable (project : Text) (requirements : List Requirement) (filename : Text)
  (regions : List Region)

/-- What the check proposes: the changes of the lines, and the lines that are missing. -/
theorem replacements_check :
    (check project requirements ⟨filename, Lines.ofText content, regions⟩).flatMap
        Warning.replacements =
      ((assignments (Lines.ofText content)).filterMap
          (ownersWarning? project requirements)).flatMap Warning.replacements ++
        (missingWarning? project requirements content
          (foundLines requirements (assignments (Lines.ofText content)))).toList.flatMap
            Warning.replacements := by
  have silent : (orderWarnings (foundLines requirements
      (assignments (Lines.ofText content)))).flatMap Warning.replacements = [] :=
    List.flatMap_eq_nil_iff.mpr fun warning member =>
      (placed_of_mem_orderWarnings content _ (placed_of_mem_foundLines content requirements)
        warning member).2
  rw [check_ofText, List.flatMap_append, List.flatMap_append, silent, List.append_nil]

theorem placed_of_mem_check (warning : Warning)
    (member : warning ∈ check project requirements ⟨filename, Lines.ofText content, regions⟩) :
    warning.PlacedIn content := by
  rw [check_ofText] at member
  rcases List.mem_append.mp member with isEarlier | isMissing
  · rcases List.mem_append.mp isEarlier with isOwners | isOrder
    · exact placed_of_mem_ownersWarnings content project requirements warning isOwners
    · exact (placed_of_mem_orderWarnings content _ (placed_of_mem_foundLines content requirements)
        warning isOrder).1
  · rcases missingWarning?_cases content project requirements
      (foundLines requirements (assignments (Lines.ofText content))) with
      complete | ⟨message, newText, isWarning⟩
    · rw [complete] at isMissing
      cases isMissing
    · rw [isWarning, Option.toList_some] at isMissing
      cases List.mem_singleton.mp isMissing
      exact .of_parts (.point_zero content) (by simp) (by simp [Span.PlacedIn.point_length])

/-- The replacements that the check proposes are in a row. -/
theorem pairwise_replacements_check :
    ((check project requirements ⟨filename, Lines.ofText content, regions⟩).flatMap
        Warning.replacements).Pairwise fun earlier later =>
      earlier.span.stop ≤ later.span.start := by
  have row := pairwise_ownersWarnings content project requirements
  rw [replacements_check]
  rcases missingWarning?_cases content project requirements
    (foundLines requirements (assignments (Lines.ofText content))) with
    complete | ⟨message, newText, isMissing⟩
  · rwa [complete, Option.toList_none, List.flatMap_nil, List.append_nil]
  · rw [isMissing, Option.toList_some, List.flatMap_singleton]
    refine List.pairwise_append.mpr ⟨row, List.pairwise_singleton _ _, ?_⟩
    intro earlier isEarlier later isLater
    obtain ⟨warning, isOwners, isReplacement⟩ := List.mem_flatMap.mp isEarlier
    cases List.mem_singleton.mp isLater
    exact ((placed_of_mem_ownersWarnings content project requirements warning
      isOwners).replacement earlier isReplacement).2.1

/-- The warnings on an owners file are sound, whatever lines are required. -/
theorem sound_check :
    Sound content (check project requirements ⟨filename, Lines.ofText content, regions⟩) :=
  ⟨placed_of_mem_check content project requirements filename regions,
    Replacement.apart_of_row _
      (pairwise_replacements_check content project requirements filename regions)⟩

/-- The fix of an owners file puts in what the check proposes, in the order in which it does. -/
theorem fix_check_eq_splice
    (enabled : ∀ warning ∈ check project requirements ⟨filename, Lines.ofText content, regions⟩,
      (⟨filename, Lines.ofText content, regions⟩ : Source).isEnabled warning = true) :
    (⟨⟨filename, Lines.ofText content, regions⟩,
        check project requirements ⟨filename, Lines.ofText content, regions⟩⟩ : Linter).fix =
      .ok (Linter.splice content 0 ((check project requirements
        ⟨filename, Lines.ofText content, regions⟩).flatMap Warning.replacements)) := by
  refine Linter.fix_eq_splice_of_row _ _ enabled (Span.row_of_pairwise 0 _ (Nat.zero_le _)
    (List.pairwise_map.mpr (pairwise_replacements_check content _ _ _ _)) ?_)
  intro span member
  obtain ⟨replacement, isReplacement, rfl⟩ := List.mem_map.mp member
  obtain ⟨warning, isWarning, isOwn⟩ := List.mem_flatMap.mp isReplacement
  obtain ⟨proper, inside, -⟩ := (placed_of_mem_check content project requirements filename regions
    warning isWarning).replacement replacement isOwn
  exact ⟨Nat.zero_le _, proper, inside⟩

end

end SourceLint.Codeowners
