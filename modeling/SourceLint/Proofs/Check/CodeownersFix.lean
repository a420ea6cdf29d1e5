/-
This file says what the fix of an owners file is, line by line. The lines that give required files
owners are put right, the lines of files that are not mentioned follow behind the last line, and
every other line is left as it is; so a check of the fixed file has nothing to say but on the order
of its lines.
-/
import SourceLint.Proofs.Codeowners.Mending

namespace SourceLint.Codeowners

/-! ### The lines of a text -/

/-- The requirements that the lines of a text are about. -/
def requirementsOn (requirements : List Requirement) (content : Text) : List Requirement :=
  ((physicalLines content).map Prod.fst).filterMap (requirementOn requirements)

theorem map_requirement_foundLines (requirements : List Requirement) (content : Text) :
    (foundLines requirements (assignments (Lines.ofText content))).map Found.requirement =
      requirementsOn requirements content := by
  have onLine (line : Line) : ((Assignment.ofLine? line.text line.start).bind fun assignment =>
      ((requirementFor? requirements assignment).map fun requirement =>
        (⟨requirement, assignment.fileSpan⟩ : Found)).map Found.requirement) =
      requirementOn requirements line.text := by
    rw [← requirementOn_eq requirements line.text line.start]
    simp [Function.comp_def]
  rw [foundLines, assignments, List.filterMap_filterMap, List.map_filterMap, requirementsOn,
    ← map_text_placeLines 0, List.filterMap_map]
  refine List.filterMap_congr fun line _ => ?_
  rw [Function.comp_apply, ← onLine, Option.map_bind]
  rfl

/-- The requirements that no line of a text is about. -/
def missingFrom (requirements : List Requirement) (content : Text) : List Requirement :=
  requirements.filter fun requirement =>
    !(requirementsOn requirements content).any fun other => other.file = requirement.file

variable (project : Text) (requirements : List Requirement)

/-- What is missing is added behind the last line, which is ended if it has to be. -/
theorem missingWarning?_eq (content : Text) :
    missingWarning? project requirements content
        (foundLines requirements (assignments (Lines.ofText content))) =
      if missingFrom requirements content = [] then none
      else some ⟨.point 0, "missing required codeowners",
        [⟨.point content.length, content.closing ++
          (missingFrom requirements content).flatMap (Requirement.line project)⟩], []⟩ := by
  have same : (requirements.filter fun requirement =>
      !((foundLines requirements (assignments (Lines.ofText content))).any fun line =>
        line.requirement.file = requirement.file)) = missingFrom requirements content := by
    refine List.filter_congr fun requirement _ => ?_
    rw [← map_requirement_foundLines, List.any_map]
    rfl
  simp only [missingWarning?, same, List.isEmpty_iff]
  rfl

theorem replacements_ownersWarning? (assignment : Assignment) :
    (ownersWarning? project requirements assignment).toList.flatMap Warning.replacements =
      match requirementFor? requirements assignment with
      | none => []
      | some requirement => ownerReplacements project requirement assignment := by
  cases isFor : requirementFor? requirements assignment with
  | none =>
    rw [ownersWarning?, isFor]
    rfl
  | some requirement =>
    by_cases silent : ownerReplacements project requirement assignment = []
    · rw [ownersWarning?, isFor]
      simp [silent]
    · rw [ownersWarning?, isFor]
      simp [silent]

/-- The changes of lines, from the first to the last. -/
theorem replacements_ownersWarnings (lines : Lines) :
    ((assignments lines).filterMap (ownersWarning? project requirements)).flatMap
        Warning.replacements =
      lines.all.flatMap fun line => lineReplacements project requirements line.text line.start := by
  rw [assignments, List.filterMap_eq_flatMap_toList, List.filterMap_eq_flatMap_toList,
    List.flatMap_assoc, List.flatMap_assoc]
  refine List.flatMap_congr fun line _ => ?_
  rw [lineReplacements]
  cases Assignment.ofLine? line.text line.start with
  | none => rfl
  | some assignment =>
    simp only [Option.toList_some, List.flatMap_singleton]
    exact replacements_ownersWarning? project requirements assignment

/-! ### The pass through the lines -/

/-- What a fix makes of a line. -/
structure Remakes (mend : Text → Text) : Prop where
  mends : ∀ line, Mends project requirements line (mend line)
  within : ∀ line position, ∀ replacement ∈ lineReplacements project requirements line position,
    position ≤ replacement.span.start
  spliced : ∀ (line above below : Text) (more : List Replacement),
    (∀ replacement ∈ more, above.length + line.length ≤ replacement.span.start) →
    Linter.splice (above ++ (line ++ below)) above.length
        (lineReplacements project requirements line above.length ++ more) =
      mend line ++ Linter.splice (above ++ (line ++ below)) (above.length + line.length) more

theorem exists_remakes : ∃ mend, Remakes project requirements mend := by
  choose mend mends within spliced using @exists_mends project requirements
  exact ⟨mend, mends, within, spliced⟩

variable {project requirements}

/-- The parts of a text with their lines put right. -/
def mendParts (mend : Text → Text) (parts : List (Text × Option Newline)) :
    List (Text × Option Newline) :=
  parts.map fun part => (mend part.1, part.2)

theorem Remakes.splice_parts {mend : Text → Text} (remakes : Remakes project requirements mend)
    (parts : List (Text × Option Newline)) (above : Text) (more : List Replacement)
    (beyond : ∀ replacement ∈ more,
      (above ++ parts.flatMap partText).length ≤ replacement.span.start) :
    Linter.splice (above ++ parts.flatMap partText) above.length
        ((placeLines above.length parts).flatMap (fun line =>
          lineReplacements project requirements line.text line.start) ++ more) =
      (mendParts mend parts).flatMap partText ++
        Linter.splice (above ++ parts.flatMap partText)
          (above ++ parts.flatMap partText).length more := by
  induction parts generalizing above with
  | nil =>
    rw [List.flatMap_nil, List.append_nil]
    rfl
  | cons part parts inductionHypothesis =>
    obtain ⟨text, ending⟩ := part
    generalize isBreak : (ending.map Newline.text).getD [] = lineBreak
    have here : (⟨above.length, text, ending⟩ : Line).fullText = text ++ lineBreak := by
      rw [Line.fullText, isBreak]
    have whole : above ++ ((text, ending) :: parts).flatMap partText =
        (above ++ (text ++ lineBreak)) ++ parts.flatMap partText := by
      rw [List.flatMap_cons, partText, isBreak]
      simp only [List.append_assoc]
    have length : (above ++ (text ++ lineBreak)).length =
        above.length + text.length + lineBreak.length := by
      simp only [List.length_append]
      omega
    rw [whole] at beyond ⊢
    have others := inductionHypothesis (above ++ (text ++ lineBreak)) beyond
    have start : above.length + (text ++ lineBreak).length =
        (above ++ (text ++ lineBreak)).length := List.length_append.symm
    have behind : ∀ replacement ∈ (placeLines (above ++ (text ++ lineBreak)).length parts).flatMap
        (fun line => lineReplacements project requirements line.text line.start) ++ more,
        (above ++ (text ++ lineBreak)).length ≤ replacement.span.start := by
      intro replacement member
      rcases List.mem_append.mp member with isChange | isMore
      · obtain ⟨line, isLine, isChange⟩ := List.mem_flatMap.mp isChange
        exact Nat.le_trans (start_le_of_mem_placeLines _ _ _ isLine)
          (remakes.within _ _ _ isChange)
      · have := beyond replacement isMore
        rw [List.length_append] at this
        omega
    have breakSlice : Text.slice ((above ++ (text ++ lineBreak)) ++ parts.flatMap partText)
        (above.length + text.length) (above ++ (text ++ lineBreak)).length = lineBreak := by
      rw [length, ← List.append_assoc above, List.append_assoc (above ++ text),
        ← List.length_append]
      exact Text.slice_append _ _ _
    rw [placeLines, List.flatMap_cons]
    dsimp only
    rw [here, start, List.append_assoc (lineReplacements project requirements text above.length)]
    have line := remakes.spliced text above (lineBreak ++ parts.flatMap partText) _
      fun replacement member => by
        have := behind replacement member
        omega
    have regrouped : above ++ (text ++ (lineBreak ++ parts.flatMap partText)) =
        (above ++ (text ++ lineBreak)) ++ parts.flatMap partText := by
      simp only [List.append_assoc]
    rw [regrouped] at line
    rw [line, Linter.splice_of_le _ _ (above ++ (text ++ lineBreak)).length _ (by omega)
      fun replacement isFirst => behind replacement (List.mem_of_head? isFirst), breakSlice, others]
    have mended : (mendParts mend ((text, ending) :: parts)).flatMap partText =
        mend text ++ lineBreak ++ (mendParts mend parts).flatMap partText := by
      rw [mendParts, List.map_cons, List.flatMap_cons, partText, isBreak]
      rfl
    rw [mended]
    simp only [List.append_assoc]

/-! ### The fixed text -/

/-- The text of a fixed owners file. -/
theorem Remakes.fix_eq {mend : Text → Text} (remakes : Remakes project requirements mend)
    (content filename : Text) (regions : List Region)
    (enabled : ∀ warning ∈ check project requirements ⟨filename, Lines.ofText content, regions⟩,
      (⟨filename, Lines.ofText content, regions⟩ : Source).isEnabled warning = true) :
    (⟨⟨filename, Lines.ofText content, regions⟩,
        check project requirements ⟨filename, Lines.ofText content, regions⟩⟩ : Linter).fix =
      .ok ((mendParts mend (physicalLines content)).flatMap partText ++
        if missingFrom requirements content = [] then [] else content.closing ++
          (missingFrom requirements content).flatMap (Requirement.line project)) := by
  have parts := remakes.splice_parts (physicalLines content) []
  rw [List.nil_append, flatMap_physicalLines] at parts
  rw [fix_check_eq_splice content project requirements filename regions enabled,
    replacements_check, replacements_ownersWarnings, missingWarning?_eq]
  split
  · have all := parts [] (List.forall_mem_nil _)
    rw [List.append_nil] at all
    rw [Option.toList_none, List.flatMap_nil, List.append_nil, List.append_nil]
    refine congrArg Except.ok (all.trans ?_)
    rw [Linter.splice, List.drop_length, List.append_nil]
  · have all := parts [⟨.point content.length, content.closing ++
      (missingFrom requirements content).flatMap (Requirement.line project)⟩]
      (List.forall_mem_singleton.mpr (Nat.le_refl _))
    refine congrArg Except.ok (all.trans ?_)
    rw [Linter.splice, Linter.splice, Span.point, Text.slice_self, List.nil_append,
      List.drop_length, List.append_nil]

section

variable (canBeMet : ∀ requirement ∈ requirements, requirement.CanBeMet project)

include canBeMet

/-- The lines of a fixed owners file are those of the text, put right, and behind them those of the
files that were not mentioned. -/
theorem Remakes.physicalLines_fixed {mend : Text → Text}
    (remakes : Remakes project requirements mend) (content : Text) :
    physicalLines ((mendParts mend (physicalLines content)).flatMap partText ++
        if missingFrom requirements content = [] then [] else content.closing ++
          (missingFrom requirements content).flatMap (Requirement.line project)) =
      if missingFrom requirements content = [] then mendParts mend (physicalLines content)
      else closeLast (mendParts mend (physicalLines content)) ++
        endedLines ((missingFrom requirements content).map (Requirement.lineText project)) := by
  have keeps (line : Text) : mend line = [] ↔ line = [] := (remakes.mends line).eq_nil_iff
  have oneLine (line : Text) (isOneLine : line.OneLine) : (mend line).OneLine :=
    (remakes.mends line).oneLine canBeMet isOneLine
  have areLines := areLines_physicalLines content
  have mended : AreLines (mendParts mend (physicalLines content)) := areLines.map keeps oneLine
  split
  · rw [List.append_nil, mended.physicalLines_eq]
  · have isMember (requirement : Requirement)
        (isMissing : requirement ∈ missingFrom requirements content) :=
      canBeMet requirement (List.mem_filter.mp isMissing).1
    have added : (missingFrom requirements content).flatMap (Requirement.line project) =
        (endedLines ((missingFrom requirements content).map
          (Requirement.lineText project))).flatMap partText := by
      rw [endedLines, List.flatMap_append, List.map_map, List.flatMap_map]
      refine (List.flatMap_congr fun requirement isMissing => ?_).trans (List.append_nil _).symm
      exact Requirement.line_eq (isMember requirement isMissing)
    have ended : AreLines (endedLines ((missingFrom requirements content).map
        (Requirement.lineText project))) := by
      refine areLines_endedLines fun line isLine => ?_
      obtain ⟨requirement, isMissing, rfl⟩ := List.mem_map.mp isLine
      exact Requirement.oneLine_lineText (isMember requirement isMissing)
    have closing : content.closing =
        Text.closing ((mendParts mend (physicalLines content)).flatMap partText) := by
      rw [mendParts, areLines.closing_map keeps oneLine, flatMap_physicalLines]
    rw [added, closing, ← List.append_assoc, ← mended.text_closeLast, ← List.flatMap_append,
      (mended.closeLast_append ended).physicalLines_eq]

variable (distinct : (requirements.map Requirement.file).Nodup)

include distinct

theorem requirementOn_lineText {requirement : Requirement} (member : requirement ∈ requirements) :
    requirementOn requirements (requirement.lineText project) = some requirement := by
  rw [requirementOn_of_assigns requirements
    (Requirement.assigns_lineText (canBeMet requirement member)) 0]
  exact requirementFor?_of_mem requirements distinct member rfl

/-- A line as it is added gives no warning on owners. -/
theorem ownersWarning?_lineText {requirement : Requirement} (member : requirement ∈ requirements)
    {position : Nat} {assignment : Assignment}
    (reads : Assignment.ofLine? (requirement.lineText project) position = some assignment) :
    ownersWarning? project requirements assignment = none := by
  have isFor : requirementFor? requirements (assignmentAt position requirement.file
      ((requirement.ownerNames project).map Entry.spaced)) = some requirement :=
    requirementFor?_of_mem requirements distinct member rfl
  have silent := Requirement.ownerReplacements_mended (canBeMet requirement member) position
    requirement.file []
  rw [Requirement.mended_nil] at silent
  rw [(Requirement.assigns_lineText (canBeMet requirement member)).ofLine?_eq] at reads
  cases reads
  rw [ownersWarning?, isFor]
  simp [silent]

variable {mend : Text → Text} (remakes : Remakes project requirements mend) {content fixed : Text}
  (lines : physicalLines fixed =
    if missingFrom requirements content = [] then mendParts mend (physicalLines content)
    else closeLast (mendParts mend (physicalLines content)) ++
      endedLines ((missingFrom requirements content).map (Requirement.lineText project)))

include remakes lines

omit distinct in
/-- Each line of a fixed file is one of the text, put right, or one that was missing, or empty. -/
theorem cases_of_mem_fixed {part : Text × Option Newline} (member : part ∈ physicalLines fixed) :
    (∃ line, part.1 = mend line) ∨
      (∃ requirement ∈ requirements, part.1 = requirement.lineText project) ∨ part.1 = [] := by
  have areLines : AreLines (mendParts mend (physicalLines content)) :=
    (areLines_physicalLines content).map (fun line => (remakes.mends line).eq_nil_iff)
      fun line => (remakes.mends line).oneLine canBeMet
  have isMended {text : Text}
      (isText : text ∈ (mendParts mend (physicalLines content)).map Prod.fst) :
      ∃ line, text = mend line := by
    rw [mendParts, List.map_map] at isText
    obtain ⟨old, -, rfl⟩ := List.mem_map.mp isText
    exact ⟨old.1, rfl⟩
  rw [lines] at member
  split at member
  case isTrue => exact Or.inl (isMended (List.mem_map_of_mem member))
  case isFalse =>
    rcases List.mem_append.mp member with isOld | isNew
    · have isText := List.mem_map_of_mem (f := Prod.fst) isOld
      rw [map_fst_closeLast areLines] at isText
      exact Or.inl (isMended (mem_of_mem_withoutEmptyEnd isText))
    · rcases List.mem_append.mp isNew with isAdded | isLast
      · obtain ⟨line, isLine, rfl⟩ := List.mem_map.mp isAdded
        obtain ⟨requirement, isMissing, rfl⟩ := List.mem_map.mp isLine
        exact Or.inr (Or.inl ⟨requirement, (List.mem_filter.mp isMissing).1, rfl⟩)
      · exact Or.inr (Or.inr (congrArg Prod.fst (List.mem_singleton.mp isLast)))

/-- The fixed file mentions the files that the text mentions, and behind them all others. -/
theorem requirementsOn_fixed :
    requirementsOn requirements fixed =
      requirementsOn requirements content ++ missingFrom requirements content := by
  have mended : ((mendParts mend (physicalLines content)).map Prod.fst).filterMap
      (requirementOn requirements) = requirementsOn requirements content := by
    rw [mendParts, List.map_map, List.filterMap_map, requirementsOn, List.filterMap_map]
    exact List.filterMap_congr fun part _ => (remakes.mends part.1).requirementOn_eq canBeMet
  rw [requirementsOn, lines]
  split
  case isTrue complete => rw [mended, complete, List.append_nil]
  case isFalse =>
    have areLines : AreLines (mendParts mend (physicalLines content)) :=
      (areLines_physicalLines content).map (fun line => (remakes.mends line).eq_nil_iff)
        fun line => (remakes.mends line).oneLine canBeMet
    have trimmed (texts : List Text) : (withoutEmptyEnd texts).filterMap
        (requirementOn requirements) = texts.filterMap (requirementOn requirements) := by
      rw [withoutEmptyEnd]
      split
      case isTrue ends =>
        conv_rhs => rw [← List.dropLast_append_getLast? _ ends]
        rw [List.filterMap_append]
        exact (List.append_nil _).symm
      case isFalse => rfl
    have added : ((endedLines ((missingFrom requirements content).map
        (Requirement.lineText project))).map Prod.fst).filterMap (requirementOn requirements) =
        missingFrom requirements content := by
      have each : ∀ requirement ∈ missingFrom requirements content,
          requirementOn requirements (requirement.lineText project) = some requirement :=
        fun requirement isMissing => requirementOn_lineText canBeMet distinct
          (List.mem_filter.mp isMissing).1
      rw [endedLines, List.map_append, List.filterMap_append, List.map_map, List.map_map,
        List.filterMap_map]
      refine (List.append_nil _).trans ((List.filterMap_congr each).trans ?_)
      exact List.filterMap_some
    rw [List.map_append, List.filterMap_append, map_fst_closeLast areLines, trimmed, mended, added]

/-- The fixed file mentions every required file. -/
theorem missingFrom_fixed : missingFrom requirements fixed = [] := by
  refine List.filter_eq_nil_iff.mpr fun requirement member isMissing => ?_
  rw [requirementsOn_fixed canBeMet distinct remakes lines, List.any_append, Bool.not_or,
    Bool.and_eq_true] at isMissing
  have added : requirement ∈ missingFrom requirements content :=
    List.mem_filter.mpr ⟨member, isMissing.1⟩
  have present : (missingFrom requirements content).any
      (fun other => other.file = requirement.file) = true :=
    List.any_eq_true.mpr ⟨requirement, added, decide_eq_true rfl⟩
  rw [present] at isMissing
  exact absurd isMissing.2 (by decide)

/-- A check of the fixed file has nothing to say but on the order of its lines. -/
theorem check_fixed (filename : Text) (regions : List Region) :
    check project requirements ⟨filename, Lines.ofText fixed, regions⟩ =
      orderWarnings (foundLines requirements (assignments (Lines.ofText fixed))) := by
  have owners : (assignments (Lines.ofText fixed)).filterMap
      (ownersWarning? project requirements) = [] := by
    refine List.filterMap_eq_nil_iff.mpr fun assignment isAssignment => ?_
    obtain ⟨line, isLine, reads⟩ := List.mem_filterMap.mp isAssignment
    have isText : line.text ∈ (physicalLines fixed).map Prod.fst := by
      rw [← map_text_placeLines 0]
      exact List.mem_map_of_mem isLine
    obtain ⟨part, isPart, same⟩ := List.mem_map.mp isText
    rw [← same] at reads
    rcases cases_of_mem_fixed canBeMet remakes lines isPart with
      ⟨old, isMended⟩ | ⟨requirement, member, isAdded⟩ | isEmpty
    · rw [isMended] at reads
      exact (remakes.mends old).ownersWarning?_eq_none canBeMet distinct reads
    · rw [isAdded] at reads
      exact ownersWarning?_lineText canBeMet distinct member reads
    · rw [isEmpty] at reads
      cases reads
  rw [check_ofText, owners, missingWarning?_eq,
    if_pos (missingFrom_fixed canBeMet distinct remakes lines)]
  exact List.append_nil _

end

/-! ### The fix -/

/-- The fix of an owners file returns, and a check of the fixed file warns of the order of lines at
most. Each line is put right where it stands, which leaves the lines of files that are not required
as they are; the lines of the files that are not mentioned follow behind the last line, which is
ended if it has to be. -/
theorem fix_puts_owners_right (project : Text) (requirements : List Requirement)
    (distinct : (requirements.map Requirement.file).Nodup)
    (canBeMet : ∀ requirement ∈ requirements, requirement.CanBeMet project)
    (content filename : Text) (regions : List Region)
    (enabled : ∀ warning ∈ check project requirements ⟨filename, Lines.ofText content, regions⟩,
      (⟨filename, Lines.ofText content, regions⟩ : Source).isEnabled warning = true) :
    ∃ (fixed : Text) (mend : Text → Text),
      (⟨⟨filename, Lines.ofText content, regions⟩,
          check project requirements ⟨filename, Lines.ofText content, regions⟩⟩ : Linter).fix =
        .ok fixed ∧
      (∀ filename regions, check project requirements ⟨filename, Lines.ofText fixed, regions⟩ =
        orderWarnings (foundLines requirements (assignments (Lines.ofText fixed)))) ∧
      (∀ line, Mends project requirements line (mend line)) ∧
      physicalLines fixed =
        if missingFrom requirements content = [] then mendParts mend (physicalLines content)
        else closeLast (mendParts mend (physicalLines content)) ++
          endedLines ((missingFrom requirements content).map (Requirement.lineText project)) := by
  obtain ⟨mend, remakes⟩ := exists_remakes project requirements
  have lines := remakes.physicalLines_fixed canBeMet content
  exact ⟨_, mend, remakes.fix_eq content filename regions enabled,
    check_fixed canBeMet distinct remakes lines, remakes.mends, lines⟩

/-- An owners file with two required files: one has an owner too many and lacks its own, and both
lines end with something that is no owner. -/
def mixedOwners : Text :=
  "pyproject.toml\t@a @b # ours\r\n\nCMakeLists.txt @a  @b \\"

theorem fix_puts_owners_right_mixedOwners :
    let source := Source.ofText "CODEOWNERS" mixedOwners checkName
    let warnings := check "cudf" standardRequirements source
    (standardRequirements.map Requirement.file).Nodup ∧
      (∀ requirement ∈ standardRequirements, requirement.CanBeMet "cudf") ∧
      (∀ warning ∈ warnings, source.isEnabled warning = true) ∧
      ∃ (fixed : Text) (mend : Text → Text), (⟨source, warnings⟩ : Linter).fix = .ok fixed ∧
        (∀ filename regions,
          check "cudf" standardRequirements ⟨filename, Lines.ofText fixed, regions⟩ =
            orderWarnings (foundLines standardRequirements (assignments (Lines.ofText fixed)))) ∧
        (∀ line, Mends "cudf" standardRequirements line (mend line)) ∧
        physicalLines fixed =
          if missingFrom standardRequirements mixedOwners = [] then
            mendParts mend (physicalLines mixedOwners)
          else closeLast (mendParts mend (physicalLines mixedOwners)) ++
            endedLines ((missingFrom standardRequirements mixedOwners).map
              (Requirement.lineText "cudf")) := by
  have distinct : (standardRequirements.map Requirement.file).Nodup := by decide
  have canBeMet : ∀ requirement ∈ standardRequirements, requirement.CanBeMet "cudf" := by
    decide +kernel
  have enabled : ∀ warning ∈ check "cudf" standardRequirements
      (Source.ofText "CODEOWNERS" mixedOwners checkName),
      (Source.ofText "CODEOWNERS" mixedOwners checkName).isEnabled warning = true := by
    decide +kernel
  exact ⟨distinct, canBeMet, enabled, fix_puts_owners_right "cudf" standardRequirements distinct
    canBeMet mixedOwners "CODEOWNERS" _ enabled⟩

/-- A requirement whose owner holds a carriage return. -/
def returnRequirement : Requirement := { file := "x", owners := [.fixed "a\\\x0db"] }

/-- An owner with a carriage return behind a backslash is a word, but as it is written it takes two
lines, and so the file that the fix of an empty one gives has incorrect owners. -/
theorem check_fixed_returnRequirement :
    let source := Source.ofText "CODEOWNERS" [] checkName
    let warnings := check "p" [returnRequirement] source
    (IsWord returnRequirement.file ∧ returnRequirement.owners ≠ [] ∧
        ∀ name ∈ returnRequirement.ownerNames "p", IsWord name) ∧
      (∀ warning ∈ warnings, source.isEnabled warning = true) ∧
      (⟨source, warnings⟩ : Linter).fix = .ok "x a\\\x0db\n" ∧
      ∃ replacements, ⟨⟨0, 1⟩, "file 'x' has incorrect owners", replacements, []⟩ ∈
        check "p" [returnRequirement] (Source.ofText "CODEOWNERS" "x a\\\x0db\n" checkName) := by
  have enabled : ∀ warning ∈ check "p" [returnRequirement] (Source.ofText "CODEOWNERS" [] checkName),
      (Source.ofText "CODEOWNERS" [] checkName).isEnabled warning = true := by decide +kernel
  refine ⟨by decide +kernel, enabled, ?_, [⟨⟨1, 3⟩, []⟩, ⟨⟨3, 3⟩, " a\\\x0db"⟩], by decide +kernel⟩
  rw [Source.ofText, fix_check_eq_splice _ _ _ _ _ enabled]
  decide +kernel

end SourceLint.Codeowners
