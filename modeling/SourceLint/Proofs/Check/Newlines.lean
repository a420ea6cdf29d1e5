/-
This file says how the lines of a fixed text end if those of the text ended with a carriage return
and a line feed. Whatever a check adds to a text is written with line feeds alone; so the lines of
the fixed text end as before, but for the lines that are added and those before them.
-/
import SourceLint.Proofs.Check.CodeownersFix
import SourceLint.Proofs.Check.Placement
import SourceLint.Proofs.Copyright.Tagged
import SourceLint.Proofs.Lines.Newlines
import SourceLint.Proofs.Text.Digits
import SourceLint.Proofs.Toml.Scanning

namespace SourceLint

/-- What a warning proposes splits no line ending and brings in no carriage return, and the flag says
whether it brings in line feeds. -/
structure Warning.KeepsPairs (content : Text) (warning : Warning) (addsLine : Prop) : Prop where
  replacements : ∀ replacement ∈ warning.replacements, replacement.KeepsPairs content
  feeds : (∃ replacement ∈ warning.replacements, 0x0A ∈ replacement.newText) ↔ addsLine

namespace Warning.KeepsPairs

variable {content : Text} {span : Span} {message : Text} {notes : List Note} {addsLine : Prop}

/-- A warning that proposes nothing. -/
theorem silent (adds : ¬addsLine) : KeepsPairs content ⟨span, message, [], notes⟩ addsLine :=
  ⟨List.forall_mem_nil _, ⟨fun ⟨_, member, _⟩ => absurd member List.not_mem_nil,
    fun isAdded => absurd isAdded adds⟩⟩

theorem single {replacement : Replacement} (keepsPairs : replacement.KeepsPairs content)
    (feeds : 0x0A ∈ replacement.newText ↔ addsLine) :
    KeepsPairs content ⟨span, message, [replacement], notes⟩ addsLine :=
  ⟨List.forall_mem_singleton.mpr keepsPairs, by simpa using feeds⟩

end Warning.KeepsPairs

namespace Replacement.KeepsPairs

variable {content newText : Text} {span : Span}

/-- A replacement on one line. -/
theorem of_line {line : Line} (isLine : line ∈ (Lines.ofText content).all)
    (after : line.start ≤ span.start) (proper : span.start ≤ span.stop)
    (before : span.stop ≤ line.stop) (noReturn : 0x0D ∉ newText) :
    KeepsPairs content ⟨span, newText⟩ where
  start := Lines.not_splitsBreak_of_mem content line isLine _ after (Nat.le_trans proper before)
  stop := Lines.not_splitsBreak_of_mem content line isLine _ (Nat.le_trans after proper) before
  noReturn := noReturn

theorem point {position : Nat} (whole : ¬content.SplitsBreak position)
    (noReturn : 0x0D ∉ newText) : KeepsPairs content ⟨.point position, newText⟩ :=
  ⟨whole, whole, noReturn⟩

end Replacement.KeepsPairs

theorem Text.OneLine.noReturn {text : Text} (isOneLine : text.OneLine) : 0x0D ∉ text :=
  fun member => (isOneLine _ member).2 rfl

theorem Text.OneLine.noFeed {text : Text} (isOneLine : text.OneLine) : 0x0A ∉ text :=
  fun member => (isOneLine _ member).1 rfl

/-- A fix with one replacement at most returns. -/
theorem Linter.exists_fix_of_length_le_one (linter : Linter) (few : linter.proposed.length ≤ 1) :
    ∃ fixed, linter.fix = .ok fixed := by
  rw [← linter.replacements_stableOrder.perm.length_eq] at few
  refine ⟨_, (linter.fix_eq_ok_iff _).mpr ⟨?_, rfl⟩⟩
  cases same : linter.replacements with
  | nil => rfl
  | cons replacement rest =>
    rw [same] at few
    cases List.length_eq_zero_iff.mp (Nat.le_zero.mp (Nat.le_of_succ_le_succ few))
    rfl

/-! ### Owners -/

namespace Codeowners

/-- The message of the warning that proposes to add lines. -/
def lineMessage : Text := "missing required codeowners"

/-- The file of a requirement and its owners in a project are written on one line. -/
def Requirement.OnOneLine (project : Text) (requirement : Requirement) : Prop :=
  requirement.file.OneLine ∧ ∀ name ∈ requirement.ownerNames project, name.OneLine

instance (project : Text) (requirement : Requirement) :
    Decidable (requirement.OnOneLine project) :=
  inferInstanceAs (Decidable (_ ∧ ∀ name ∈ requirement.ownerNames project, _))

variable {project : Text} {requirements : List Requirement}

theorem oneLine_written {names : List Text} (areOneLine : ∀ name ∈ names, name.OneLine) :
    (written (names.map Entry.spaced)).OneLine := by
  have isSpace : Text.OneLine " " := by decide
  intro unit member
  obtain ⟨entry, isEntry, inEntry⟩ := List.mem_flatMap.mp member
  obtain ⟨name, isName, rfl⟩ := List.mem_map.mp isEntry
  exact isSpace.append (areOneLine name isName) unit inEntry

/-- The new texts on a line are written on one line. -/
theorem oneLine_of_mem_ownerReplacements {requirement : Requirement}
    (onOneLine : requirement.OnOneLine project) (position : Nat) (file : Text)
    {entries : List Entry} (notEmpty : entries ≠ []) {replacement : Replacement}
    (member : replacement ∈
      ownerReplacements project requirement (assignmentAt position file entries)) :
    replacement.newText.OneLine := by
  rw [ownerReplacements_assignmentAt requirement position file notEmpty] at member
  rcases List.mem_append.mp member with isRemoval | isAddition
  · obtain ⟨owner, -, rfl⟩ := List.mem_map.mp isRemoval
    exact List.forall_mem_nil _
  · rw [additions] at isAddition
    split at isAddition
    · cases isAddition
    · cases List.mem_singleton.mp isAddition
      exact oneLine_written fun name isLacking =>
        onOneLine.2 name (List.mem_filter.mp isLacking).1

theorem noReturn_line {requirement : Requirement} (onOneLine : requirement.OnOneLine project) :
    0x0D ∉ requirement.line project := by
  have joined (names : List Text) (areOneLine : ∀ name ∈ names, name.OneLine) :
      0x0D ∉ Text.join " " names := by
    induction names with
    | nil => exact List.not_mem_nil
    | cons name names inductionHypothesis =>
      obtain ⟨isOneLine, others⟩ := List.forall_mem_cons.mp areOneLine
      cases names with
      | nil => exact isOneLine.noReturn
      | cons next names =>
        rw [Text.join]
        · rintro member
          rcases List.mem_append.mp member with isFirst | isLater
          · rcases List.mem_append.mp isFirst with inName | inSpace
            · exact isOneLine.noReturn inName
            · exact absurd inSpace (by decide)
          · exact inductionHypothesis others isLater
        · exact List.cons_ne_nil _ _
  intro member
  rw [Requirement.line] at member
  rcases List.mem_append.mp member with inLine | inFeed
  · rcases List.mem_append.mp inLine with inFile | inNames
    · rcases List.mem_append.mp inFile with inFile | inSpace
      · exact onOneLine.1.noReturn inFile
      · exact absurd inSpace (by decide)
    · exact joined _ onOneLine.2 inNames
  · exact absurd inFeed (by decide)

theorem feed_mem_line (project : Text) (requirement : Requirement) :
    0x0A ∈ requirement.line project :=
  List.mem_append_right _ (List.mem_singleton.mpr rfl)

theorem unlike_lineMessage (rest : Text) : ¬("file '" : Text) ++ rest = lineMessage := fun same => by
  have first : some ('f' : CodeUnit) = some ('m' : CodeUnit) := congrArg List.head? same
  exact absurd first (by decide)

/-- Owners are put right within their line. -/
theorem keepsPairs_of_ownersWarning?
    (onOneLine : ∀ requirement ∈ requirements, requirement.OnOneLine project) {content : Text}
    {warning : Warning}
    (member : warning ∈ (assignments (Lines.ofText content)).filterMap
      (ownersWarning? project requirements)) :
    warning.KeepsPairs content (warning.message = lineMessage) := by
  obtain ⟨assignment, isAssignment, warns⟩ := List.mem_filterMap.mp member
  obtain ⟨line, isLine, reads⟩ := List.mem_filterMap.mp isAssignment
  have within := assignment.within_of_ofLine? line reads
  obtain ⟨requirement, isFor, warns⟩ := Option.bind_eq_some_iff.mp warns
  have isMember := (requirementFor?_eq_some requirements isFor).1
  obtain ⟨file, entries, rest, assigns, rfl⟩ := exists_assigns reads
  dsimp only at warns
  split at warns
  · cases warns
  cases warns
  have oneLine (replacement : Replacement) (isProposed : replacement ∈
      ownerReplacements project requirement (assignmentAt line.start file entries)) :
      replacement.newText.OneLine :=
    oneLine_of_mem_ownerReplacements (onOneLine requirement isMember) _ _ assigns.notEmpty
      isProposed
  refine ⟨fun replacement isProposed => ?_, fun ⟨replacement, isProposed, isFeed⟩ =>
    absurd isFeed (oneLine replacement isProposed).noFeed, fun isLine => ?_⟩
  · obtain ⟨after, proper, before⟩ := within.bounds project requirement replacement isProposed
    exact .of_line isLine after proper before (oneLine replacement isProposed).noReturn
  · rw [List.append_assoc] at isLine
    exact absurd isLine (unlike_lineMessage _)

/-- A warning on the order of lines proposes nothing. -/
theorem keepsPairs_of_mem_orderWarnings {content : Text} {found : List Found} {warning : Warning}
    (member : warning ∈ orderWarnings found) :
    warning.KeepsPairs content (warning.message = lineMessage) := by
  obtain ⟨line, _, warns⟩ := List.mem_flatMap.mp member
  obtain ⟨earlier, _, warns⟩ := List.mem_filterMap.mp warns
  rw [orderWarning?] at warns
  split at warns
  · cases warns
  · cases warns
    refine .silent ?_
    simp only [List.append_assoc]
    exact unlike_lineMessage _

/-- The missing lines are put in behind the text, which no pair reaches over. -/
theorem keepsPairs_of_missingWarning?
    (onOneLine : ∀ requirement ∈ requirements, requirement.OnOneLine project) {content : Text}
    {warning : Warning}
    (member : warning ∈ (missingWarning? project requirements content
      (foundLines requirements (assignments (Lines.ofText content)))).toList) :
    warning.KeepsPairs content (warning.message = lineMessage) := by
  rw [missingWarning?_eq] at member
  split at member
  · cases member
  case isFalse some =>
    cases List.mem_singleton.mp member
    obtain ⟨requirement, others, same⟩ := List.exists_cons_of_ne_nil some
    have noReturn (requirement : Requirement) (isMissing : requirement ∈
        missingFrom requirements content) : 0x0D ∉ requirement.line project :=
      noReturn_line (onOneLine requirement (List.mem_filter.mp isMissing).1)
    refine .single (.point content.not_splitsBreak_length fun isReturn => ?_)
      (iff_of_true (List.mem_append_right _ ?_) rfl)
    · rcases List.mem_append.mp isReturn with inGap | inLines
      · rw [Text.closing_eq] at inGap
        split at inGap
        · cases inGap
        · exact absurd (List.mem_singleton.mp inGap) (by decide)
      · obtain ⟨requirement, isMember, inLine⟩ := List.mem_flatMap.mp inLines
        exact noReturn requirement isMember inLine
    · exact List.mem_flatMap.mpr ⟨requirement, same ▸ List.mem_cons_self, feed_mem_line _ _⟩

theorem keepsPairs_of_mem_check
    (onOneLine : ∀ requirement ∈ requirements, requirement.OnOneLine project) (content : Text)
    (filename : Text) (regions : List Region) (warning : Warning)
    (member : warning ∈ check project requirements ⟨filename, Lines.ofText content, regions⟩) :
    warning.KeepsPairs content (warning.message = lineMessage) := by
  rw [check_ofText] at member
  rcases List.mem_append.mp member with isEarlier | isMissing
  · rcases List.mem_append.mp isEarlier with isOwners | isOrder
    · exact keepsPairs_of_ownersWarning? onOneLine isOwners
    · exact keepsPairs_of_mem_orderWarnings isOrder
  · exact keepsPairs_of_missingWarning? onOneLine isMissing

end Codeowners

/-! ### Licenses -/

namespace ProjectLicense

/-- The message of the warning that proposes to add lines. -/
def lineMessage : Text :=
  "add project.license with value \x7b text = " ++ preferred.quote ++ " \x7d"

theorem keepsPairs_missingWarning (content : Text) :
    (missingWarning content (Toml.Layout.ofText content)).KeepsPairs content
      ((missingWarning content (Toml.Layout.ofText content)).message = lineMessage) := by
  have noReturn : 0x0D ∉ entry := by decide +kernel
  have isFeed : 0x0A ∈ entry := by decide +kernel
  have gap (needed : Bool) : 0x0D ∉ newlineIf needed := by cases needed <;> decide
  rw [missingWarning]
  split
  case h_1 table found =>
    refine .single (.point (Toml.not_splitsBreak_table? content _ table found) fun isReturn => ?_)
      (iff_of_true (List.mem_append_right _ isFeed) rfl)
    rcases List.mem_append.mp isReturn with inGap | inEntry
    · exact gap _ inGap
    · exact noReturn inEntry
  case h_2 =>
    refine .single (.point content.not_splitsBreak_length fun isReturn => ?_)
      (iff_of_true (List.mem_append_right _ isFeed) rfl)
    rcases List.mem_append.mp isReturn with inTable | inEntry
    · rcases List.mem_append.mp inTable with inGap | inHeader
      · exact gap _ inGap
      · exact absurd inHeader (by decide)
    · exact noReturn inEntry

theorem keepsPairs_of_mem_check {Scalar : Type} {parse : Text → Option (Toml.Table Scalar)}
    {content filename : Text} {regions : List Region} {warnings : List Warning}
    (checks : check parse ⟨filename, Lines.ofText content, regions⟩ = .ok warnings)
    (warning : Warning) (member : warning ∈ warnings) :
    warning.KeepsPairs content (warning.message = lineMessage) := by
  have wrong (isWrong : warning ∈ (wrongWarning (Toml.Layout.ofText content)).toList) :
      warning.KeepsPairs content (warning.message = lineMessage) := by
    obtain ⟨place, -, rfl⟩ := Option.map_eq_some_iff.mp (Option.mem_toList.mp isWrong)
    have unlike : ¬("license should be " : Text) ++ preferred.quote = lineMessage := by
      decide +kernel
    exact .silent unlike
  rw [check] at checks
  split at checks
  case h_1 => cases checks
  case h_2 =>
    dsimp only at checks
    split at checks
    · cases checks
      cases List.mem_singleton.mp member
      exact keepsPairs_missingWarning content
    · cases checks
      split at member
      · cases member
      · exact wrong member
    · cases checks
      exact wrong member

/-- The check proposes one change at most. -/
theorem length_replacements_le {Scalar : Type} {parse : Text → Option (Toml.Table Scalar)}
    {source : Source} {warnings : List Warning} (checks : check parse source = .ok warnings) :
    (warnings.flatMap Warning.replacements).length ≤ 1 := by
  have wrong (layout : Toml.Layout) :
      ((wrongWarning layout).toList.flatMap Warning.replacements).length ≤ 1 := by
    cases isWrong : wrongWarning layout with
    | none => exact Nat.zero_le _
    | some warning =>
      obtain ⟨place, -, rfl⟩ := Option.map_eq_some_iff.mp isWrong
      exact Nat.zero_le _
  rw [check] at checks
  split at checks
  case h_1 => cases checks
  case h_2 =>
    dsimp only at checks
    split at checks
    · cases checks
      rw [List.flatMap_singleton, missingWarning]
      split <;> exact Nat.le_refl _
    · cases checks
      split
      · exact Nat.zero_le _
      · exact wrong _
    · cases checks
      exact wrong _

end ProjectLicense

/-! ### Copyright headers -/

namespace Copyright

/-- The message of the warning that proposes to add a line. -/
def lineMessage : Text := "no SPDX-License-Identifier header found"

/-- No other warning on headers has this message. -/
theorem unlike_lineMessage : "include SPDX-FileCopyrightText header" ≠ lineMessage ∧
    "SPDX-License-Identifier is incorrect" ≠ lineMessage ∧
    "remove long-form copyright text" ≠ lineMessage ∧ "no copyright notice found" ≠ lineMessage ∧
    "copyright is out of date" ≠ lineMessage ∧
    "copyright is not out of date and should not be updated" ≠ lineMessage := by
  decide +kernel

/-- Each header of a text is found on a line. -/
theorem Header.Searched.exists_found_of_mem {content : Text} {start : Nat} {headers : List Header}
    (searched : Searched content start headers) (begins : BeginsSearch content start) :
    ∀ header ∈ headers, ∃ start above before line below,
      Found content start header above before line below := by
  induction headers generalizing start with
  | nil => exact List.forall_mem_nil _
  | cons header rest inductionHypothesis =>
    obtain ⟨⟨above, before, line, below, isFound⟩, others, ends⟩ := searched.exists_found begins
    exact List.forall_mem_cons.mpr ⟨⟨start, above, before, line, below, isFound⟩,
      inductionHypothesis others (Or.inr ends)⟩

theorem Header.exists_found_of_all {content : Text} {headers : List Header}
    (finds : all (Lines.ofText content) = .ok headers) :
    ∀ header ∈ headers, ∃ start above before line below,
      Found content start header above before line below :=
  ((all_eq_ok_iff content headers).mp finds).exists_found_of_mem (Or.inl rfl)

namespace Header.Found

variable {content above before line below : Text} {start : Nat} {header : Header}
  (isFound : Found content start header above before line below)

include isFound

theorem keepsPairs_on_line {span : Span} {newText : Text} (after : header.start ≤ span.start)
    (proper : span.start ≤ span.stop) (inside : span.stop ≤ header.lineStop)
    (noReturn : 0x0D ∉ newText) : Replacement.KeepsPairs content ⟨span, newText⟩ := by
  obtain ⟨place, isPlace, begins, -, -, ends⟩ := isFound.inText.line
  exact .of_line isPlace (Nat.le_trans begins after) proper (ends ▸ inside) noReturn

theorem keepsPairs_of_mem_tagWarnings (warning : Warning) (member : warning ∈ tagWarnings header) :
    warning.KeepsPairs content (warning.message = lineMessage) := by
  have starts := isFound.inText.start_le_noticeStart
  have ends := isFound.inText.noticeStart_le_lineStop
  rw [tagWarnings] at member
  split at member
  · cases member
  · cases List.mem_singleton.mp member
    have isOneLine : Text.OneLine (noticeTag ++ " ") := by decide +kernel
    exact .single (isFound.keepsPairs_on_line starts (Nat.le_refl _)
      (Nat.le_trans (Nat.le_add_right _ _) ends) isOneLine.noReturn)
      (iff_of_false isOneLine.noFeed unlike_lineMessage.1)

theorem keepsPairs_of_mem_licenseWarnings {identifier : Text} (isOneLine : identifier.OneLine)
    (warning : Warning) (member : warning ∈ licenseWarnings identifier header) :
    warning.KeepsPairs content (warning.message = lineMessage) := by
  have starts := isFound.inText.start_le_noticeStart
  have ends := isFound.inText.noticeStart_le_lineStop
  rw [licenseWarnings] at member
  split at member
  case h_1 =>
    cases List.mem_singleton.mp member
    refine .single (isFound.keepsPairs_on_line (by dsimp only [Span.point]; omega) (Nat.le_refl _)
      (Nat.le_refl _) ?_) (iff_of_true ?_ rfl)
    · have fixedParts : 0x0D ∉ ("\n" : Text) ∧ 0x0D ∉ licenseTag ∧ 0x0D ∉ (" " : Text) := by
        decide +kernel
      have isLeader := (isOneLine_continuationLeader isFound.isOneLine_leader).noReturn
      simp only [List.mem_append, not_or]
      exact ⟨⟨⟨⟨fixedParts.1, isLeader⟩, fixedParts.2.1⟩, fixedParts.2.2⟩, isOneLine.noReturn⟩
    · simp only [List.append_assoc]
      exact List.mem_append_left _ (List.mem_singleton.mpr rfl)
  case h_2 license isLicense =>
    split at member
    · cases member
    · cases List.mem_singleton.mp member
      obtain ⟨place, isPlace, -, after, inside⟩ := isFound.inText.license license isLicense
      refine .single (.of_line isPlace (Nat.le_trans after (Nat.le_add_right _ _))
        (Nat.le_add_right _ _) inside isOneLine.noReturn)
        (iff_of_false isOneLine.noFeed unlike_lineMessage.2.1)

theorem keepsPairs_of_mem_longFormWarnings (warning : Warning)
    (member : warning ∈ longFormWarnings header) :
    warning.KeepsPairs content (warning.message = lineMessage) := by
  rw [longFormWarnings] at member
  split at member
  case h_1 => cases member
  case h_2 longForm isLongForm =>
    cases List.mem_singleton.mp member
    obtain ⟨-, head, isHead, after, inside⟩ := isFound.inText.headStop_in_line
    obtain ⟨-, -, last, isLast, -, -, ends⟩ := isFound.places.2 longForm isLongForm
    refine .single ⟨Lines.not_splitsBreak_of_mem content head isHead _ after inside, ?_,
      List.not_mem_nil⟩ (iff_of_false List.not_mem_nil unlike_lineMessage.2.2.1)
    dsimp only
    rw [ends]
    exact Lines.not_splitsBreak_of_mem content last isLast _ last.start_le_stop (Nat.le_refl _)

end Header.Found

/-- What is proposed for the tags of a header. -/
theorem keepsPairs_of_mem_spdxWarnings {content identifier : Text} {headers : List Header}
    (finds : Header.all (Lines.ofText content) = .ok headers) (isOneLine : identifier.OneLine)
    (warning : Warning)
    (member : warning ∈ (headers.head?.map (spdxWarnings identifier)).getD []) :
    warning.KeepsPairs content (warning.message = lineMessage) := by
  cases headers with
  | nil => cases member
  | cons header rest =>
    obtain ⟨start, above, before, line, below, isFound⟩ :=
      Header.exists_found_of_all finds header List.mem_cons_self
    rcases List.mem_append.mp member with isEarlier | isLongForm
    · rcases List.mem_append.mp isEarlier with isTag | isLicense
      · exact isFound.keepsPairs_of_mem_tagWarnings warning isTag
      · exact isFound.keepsPairs_of_mem_licenseWarnings isOneLine warning isLicense
    · exact isFound.keepsPairs_of_mem_longFormWarnings warning isLongForm

/-- A notice as it is brought up to date is written on one line. -/
theorem oneLine_notice (first last : Nat) : Text.OneLine
    ("Copyright (c) " ++ Text.ofNat first ++ "-" ++ Text.ofNat last ++ ", NVIDIA CORPORATION") := by
  have digits (number : Nat) : (Text.ofNat number).OneLine := fun unit isDigit => by
    have digit := Text.isDigit_of_mem_ofNat number unit isDigit
    constructor <;> rintro rfl <;> exact absurd digit (by decide)
  have begins : Text.OneLine "Copyright (c) " := by decide
  have dash : Text.OneLine "-" := by decide
  have ends : Text.OneLine ", NVIDIA CORPORATION" := by decide
  exact (((begins.append (digits first)).append dash).append (digits last)).append ends

/-- What is proposed for the years of headers. -/
theorem keepsPairs_of_mem_yearWarnings {content : Text} {headers : List Header} (year : Nat)
    (finds : Header.all (Lines.ofText content) = .ok headers) (warning : Warning)
    (member : warning ∈ yearWarnings year headers) :
    warning.KeepsPairs content (warning.message = lineMessage) := by
  cases headers with
  | nil =>
    cases List.mem_singleton.mp member
    exact .silent unlike_lineMessage.2.2.2.1
  | cons header rest =>
    rw [yearWarnings] at member
    dsimp only at member
    split at member
    · cases member
    · cases List.mem_singleton.mp member
      obtain ⟨start, above, before, line, below, isFound⟩ :=
        Header.exists_found_of_all finds _ (newestOf_mem header rest)
      have written := oneLine_notice (newestOf header rest).notice.firstYearValue year
      exact .single (isFound.keepsPairs_on_line isFound.inText.start_le_noticeStart
        (Nat.le_add_right _ _) isFound.inText.noticeStart_le_lineStop written.noReturn)
        (iff_of_false written.noFeed unlike_lineMessage.2.2.2.2.1)

/-- What is proposed for headers that should not have changed. -/
theorem keepsPairs_of_mem_revertWarnings {content oldContent : Text} {old new : List Header}
    (change : Change) (finds : Header.all (Lines.ofText content) = .ok new)
    (oldFinds : Header.all (Lines.ofText oldContent) = .ok old) (warning : Warning)
    (member : warning ∈ revertWarnings change content oldContent old new) :
    warning.KeepsPairs content (warning.message = lineMessage) := by
  obtain ⟨⟨oldHeader, header⟩, isPair, warns⟩ := List.mem_filterMap.mp member
  obtain ⟨isOld, isNew⟩ := List.of_mem_zip isPair
  obtain ⟨start, above, before, line, below, isFound⟩ :=
    Header.exists_found_of_all finds header isNew
  obtain ⟨_, _, _, oldLine, _, isOldFound⟩ := Header.exists_found_of_all oldFinds oldHeader isOld
  have isOneLine : (oldHeader.lineSpan.text oldContent).OneLine :=
    isOldFound.lineText ▸ isOldFound.isOneLine
  change revertWarning? change content oldContent oldHeader header = some warning at warns
  rw [revertWarning?] at warns
  dsimp only at warns
  split at warns
  · cases warns
  · cases warns
    have ends := isFound.inText.noticeStart_le_lineStop
    exact .single (isFound.keepsPairs_on_line isFound.inText.start_le_noticeStart
      (by dsimp only [Header.lineSpan]; omega) (Nat.le_refl _) isOneLine.noReturn)
      (iff_of_false isOneLine.noFeed unlike_lineMessage.2.2.2.2.2)

theorem keepsPairs_of_mem_check {policy : Policy} {year : Nat} {change : Change}
    {content filename : Text} {regions : List Region} {warnings : List Warning}
    (isOneLine : policy.identifier.OneLine)
    (checks : check policy year change ⟨filename, Lines.ofText content, regions⟩ = .ok warnings)
    (warning : Warning) (member : warning ∈ warnings) :
    warning.KeepsPairs content (warning.message = lineMessage) := by
  obtain ⟨headers, finds, checks⟩ := exists_of_bind_eq_ok _ _ _ checks
  have history {years : List Warning}
      (isHistory : historyWarnings year change content headers = .ok years)
      (isYear : warning ∈ years) : warning.KeepsPairs content (warning.message = lineMessage) := by
    rw [historyWarnings] at isHistory
    split at isHistory
    · cases isHistory
      exact keepsPairs_of_mem_yearWarnings year finds warning isYear
    · obtain ⟨oldHeaders, oldFinds, isHistory⟩ := exists_of_bind_eq_ok _ _ _ isHistory
      split at isHistory
      · cases isHistory
        exact keepsPairs_of_mem_revertWarnings change finds oldFinds warning isYear
      · cases isHistory
        exact keepsPairs_of_mem_yearWarnings year finds warning isYear
  have tags (demanded : Bool) (isTag : warning ∈ if demanded then
      (headers.head?.map (spdxWarnings policy.identifier)).getD [] else []) :
      warning.KeepsPairs content (warning.message = lineMessage) := by
    cases demanded with
    | false => cases isTag
    | true => exact keepsPairs_of_mem_spdxWarnings finds isOneLine warning isTag
  dsimp only at checks
  split at checks
  · obtain ⟨years, isHistory, checks⟩ := exists_of_bind_eq_ok _ _ _ checks
    cases checks
    rcases List.mem_append.mp member with isYear | isTag
    · exact history isHistory isYear
    · exact tags _ isTag
  · cases checks
    rcases List.mem_append.mp member with isYear | isTag
    · cases isYear
    · exact tags _ isTag

end Copyright

/-! ### Scripts -/

/-- What is proposed for a command is put in on its line. -/
theorem CondaYes.keepsPairs_of_mem_check {source : Source} {warnings : List Warning}
    (checks : check source = .ok warnings) (warning : Warning) (member : warning ∈ warnings) :
    warning.KeepsPairs source.content False := by
  have placed := (sound_check source warnings checks).placed warning member
  rw [check] at checks
  split at checks
  · cases checks
  · cases checks
    obtain ⟨command, -, warns⟩ := List.mem_filterMap.mp member
    obtain ⟨subcommand, -, warns⟩ := Option.bind_eq_some_iff.mp warns
    obtain ⟨program, -, warns⟩ := Option.bind_eq_some_iff.mp warns
    cases warns
    have answer : Text.OneLine " -y" := by decide
    have point := placed.replacement _ List.mem_cons_self
    exact .single (.point point.2.2 answer.noReturn) (iff_of_false answer.noFeed id)

/-! ### Any check -/

namespace ContentCheck

/-- The message of the warnings that propose to add lines. -/
def lineMessage : ContentCheck → Option Text
  | codeowners _ _ => some Codeowners.lineMessage
  | projectLicense => some ProjectLicense.lineMessage
  | copyright _ _ _ => some Copyright.lineMessage
  | hardcodedVersion _ _ => none
  | condaYes => none

/-- A warning that proposes to add lines: owners that are missing, the license of a project, or the
license of a header. -/
def AddsLine (check : ContentCheck) (warning : Warning) : Prop :=
  check.lineMessage = some warning.message

instance (check : ContentCheck) (warning : Warning) : Decidable (check.AddsLine warning) :=
  inferInstanceAs (Decidable (_ = _))

/-- The names that a check may put into a text are written on one line. -/
def NamesOnOneLine : ContentCheck → Prop
  | codeowners project requirements =>
    ∀ requirement ∈ requirements, requirement.OnOneLine project
  | copyright policy _ _ => policy.identifier.OneLine
  | _ => True

theorem keepsPairs_of_run {Scalar : Type} {parse : Text → Option (Toml.Table Scalar)}
    {check : ContentCheck} (names : check.NamesOnOneLine)
    {filename content : Text} {regions : List Region} {warnings : List Warning}
    (runs : check.run parse ⟨filename, Lines.ofText content, regions⟩ = .ok warnings) (warning : Warning)
    (member : warning ∈ warnings) : warning.KeepsPairs content (check.AddsLine warning) := by
  have adds {message : Text} : warning.message = message ↔ some message = some warning.message :=
    ⟨fun same => congrArg some same.symm, fun same => (Option.some.inj same).symm⟩
  cases check with
  | codeowners project requirements =>
    cases runs
    obtain ⟨replacements, feeds⟩ := Codeowners.keepsPairs_of_mem_check names content filename
      regions warning member
    exact ⟨replacements, feeds.trans adds⟩
  | projectLicense =>
    obtain ⟨replacements, feeds⟩ := ProjectLicense.keepsPairs_of_mem_check runs warning member
    exact ⟨replacements, feeds.trans adds⟩
  | copyright policy year change =>
    obtain ⟨replacements, feeds⟩ := Copyright.keepsPairs_of_mem_check names runs warning member
    exact ⟨replacements, feeds.trans adds⟩
  | condaYes =>
    obtain ⟨replacements, feeds⟩ := CondaYes.keepsPairs_of_mem_check runs warning member
    exact ⟨replacements, feeds.trans ⟨False.elim, fun same => by cases same⟩⟩
  | hardcodedVersion versionFile version =>
    have silent : warning.replacements = [] := by
      rw [run, HardcodedVersion.check] at runs
      split at runs
      · cases runs
        cases member
      · obtain ⟨found, -, rfl⟩ := Copyright.exists_of_map_eq_ok _ _ _ runs
        obtain ⟨occurrence, -, rfl⟩ := List.mem_map.mp member
        rfl
    refine ⟨by simp [silent], ⟨?_, fun same => by cases same⟩⟩
    rintro ⟨replacement, isOwn, -⟩
    rw [silent] at isOwn
    cases isOwn

/-- The fix of a content check returns, for any text. -/
theorem exists_fix {Scalar : Type} {parse : Text → Option (Toml.Table Scalar)}
    {check : ContentCheck} {filename content : Text} {regions : List Region}
    {warnings : List Warning}
    (runs : check.run parse ⟨filename, Lines.ofText content, regions⟩ = .ok warnings) :
    ∃ fixed, (⟨⟨filename, Lines.ofText content, regions⟩, warnings⟩ : Linter).fix = .ok fixed := by
  by_cases isLicense : check = projectLicense
  · subst isLicense
    exact Linter.exists_fix_of_length_le_one _ (Nat.le_trans (Linter.proposed_subperm _).length_le
      (ProjectLicense.length_replacements_le runs))
  · exact (Linter.fix_report_of_sound filename content regions warnings
      (sound_run_of_ne isLicense filename content regions warnings runs)).1

/-- A text whose lines end with a carriage return and a line feed keeps these endings when it is
fixed, up to the line feeds that the new texts have; so all its lines end so exactly if no line is
added. -/
theorem count_newlines_fix {Scalar : Type} (parse : Text → Option (Toml.Table Scalar))
    (check : ContentCheck) (names : check.NamesOnOneLine) (filename content : Text)
    (regions : List Region) (warnings : List Warning)
    (runs : check.run parse ⟨filename, Lines.ofText content, regions⟩ = .ok warnings)
    (onlyPairs : content.OnlyPairs) :
    let linter : Linter := ⟨⟨filename, Lines.ofText content, regions⟩, warnings⟩
    ∃ fixed, linter.fix = .ok fixed ∧ (Lines.ofText fixed).count .cr = 0 ∧
      (Lines.ofText fixed).count .lf = Replacement.feeds linter.proposed ∧
      (fixed.OnlyPairs ↔ ∀ warning ∈ linter.counted, ¬check.AddsLine warning) := by
  intro linter
  obtain ⟨fixed, fixes⟩ := exists_fix runs
  have keeps := keepsPairs_of_run names runs
  obtain ⟨noReturn, feeds⟩ := Linter.count_fix fixes onlyPairs fun warning member =>
    (keeps warning member).replacements
  refine ⟨fixed, fixes, noReturn, feeds, ?_⟩
  have isEnabled {warning : Warning} (counts : warning ∈ linter.counted) : warning ∈ warnings :=
    linter.counted_sublist.subset counts
  rw [Text.onlyPairs_iff, feeds, Replacement.feeds_eq_zero_iff]
  constructor
  · rintro ⟨-, noFeed⟩ warning counts adds
    obtain ⟨replacement, isOwn, isFeed⟩ := (keeps warning (isEnabled counts)).feeds.mpr adds
    exact noFeed replacement (List.mem_flatMap.mpr ⟨warning, counts, isOwn⟩) isFeed
  · intro noLine
    refine ⟨noReturn, fun replacement isProposed isFeed => ?_⟩
    obtain ⟨warning, counts, isOwn⟩ := List.mem_flatMap.mp isProposed
    exact noLine warning counts
      ((keeps warning (isEnabled counts)).feeds.mp ⟨replacement, isOwn, isFeed⟩)

/-- An owners file with the lines that are needed, of which one names a wrong owner. -/
def pairedOwners : Text :=
  "# owners\r\nCMakeLists.txt @rapidsai/cmake\r\npyproject.toml @rapidsai/ci-codeowners # ours\r\n"

theorem count_newlines_fix_pairedOwners :
    let source := Source.ofText "CODEOWNERS" pairedOwners Codeowners.checkName
    let check := codeowners "cudf" Codeowners.standardRequirements
    let warnings := Codeowners.check "cudf" Codeowners.standardRequirements source
    let linter : Linter := ⟨source, warnings⟩
    let parse : Text → Option (Toml.Table Bool) := fun _ => none
    check.NamesOnOneLine ∧ check.run parse source = .ok warnings ∧ pairedOwners.OnlyPairs ∧
      ∃ fixed, linter.fix = .ok fixed ∧ (Lines.ofText fixed).count .cr = 0 ∧
        (Lines.ofText fixed).count .lf = Replacement.feeds linter.proposed ∧
        (fixed.OnlyPairs ↔ ∀ warning ∈ linter.counted, ¬check.AddsLine warning) := by
  have names : ∀ requirement ∈ Codeowners.standardRequirements, requirement.OnOneLine "cudf" := by
    decide +kernel
  have onlyPairs : pairedOwners.OnlyPairs := by decide +kernel
  exact ⟨names, rfl, onlyPairs, count_newlines_fix
    (fun _ => (none : Option (Toml.Table Bool)))
    (codeowners "cudf" Codeowners.standardRequirements) names "CODEOWNERS" pairedOwners _ _ rfl
    onlyPairs⟩

/-- A line that is missing is added with a line feed alone; and a carriage return in the name of an
owner comes into the text although no line is added. -/
theorem not_onlyPairs_fixed :
    (let content : Text := "CMakeLists.txt @rapidsai/cudf-cmake-codeowners\r\n"
      let source := Source.ofText "CODEOWNERS" content Codeowners.checkName
      content.OnlyPairs ∧ (Lines.ofText content).count .crlf = 1 ∧
        ∃ fixed, (⟨source, Codeowners.check "cudf" Codeowners.standardRequirements source⟩ :
          Linter).fix = .ok fixed ∧ ¬fixed.OnlyPairs) ∧
      let content : Text := "x b\r\n"
      let source := Source.ofText "CODEOWNERS" content Codeowners.checkName
      let check := codeowners "p" [Codeowners.returnRequirement]
      let warnings := Codeowners.check "p" [Codeowners.returnRequirement] source
      content.OnlyPairs ∧ (∀ warning ∈ warnings, ¬check.AddsLine warning) ∧
        ∃ fixed, (⟨source, warnings⟩ : Linter).fix = .ok fixed ∧ ¬fixed.OnlyPairs := by
  refine ⟨⟨by decide +kernel, by decide +kernel, ?_⟩, ⟨by decide +kernel, by decide +kernel, ?_⟩⟩
  · refine ⟨_, Codeowners.fix_check_eq_splice _ _ _ _ _ (by decide +kernel), by decide +kernel⟩
  · refine ⟨_, Codeowners.fix_check_eq_splice _ _ _ _ _ (by decide +kernel), by decide +kernel⟩

end ContentCheck

end SourceLint
