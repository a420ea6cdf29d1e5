/-
This file says what is found beneath a notice, and that it depends on the lines there alone: on the
comment leader, but not on the notice itself or on where the lines stand. Nor does it depend on what
comes after a line with the next notice, since such a line is neither part of the long text of a
license nor, as a rule, a line with a license identifier.
-/
import SourceLint.Proofs.Copyright.Header
import SourceLint.Proofs.Copyright.LicenseLine
import SourceLint.Proofs.Lines.Around

namespace SourceLint

/-- A line moved to the right. -/
def Line.shift (line : Line) (distance : Nat) : Line := { line with start := line.start + distance }

theorem Line.stop_shift (line : Line) (distance : Nat) :
    (line.shift distance).stop = line.stop + distance := Nat.add_right_comm _ _ _

theorem placeLines_shift (start distance : Nat) (parts : List (Text × Option Newline)) :
    placeLines (start + distance) parts =
      (placeLines start parts).map fun line => line.shift distance := by
  induction parts generalizing start with
  | nil => rfl
  | cons part rest inductionHypothesis =>
    rw [placeLines, placeLines, List.map_cons, ← inductionHypothesis, Nat.add_right_comm]
    rfl

namespace Copyright

/-! ### Lines that are read as the lines of a license -/

/-- The leader of the lines that follow differs at most in the start of a block comment. -/
theorem continuationLeader_cases (leader : Text) :
    continuationLeader leader = leader ∨ ∃ before after,
      leader = before ++ 0x2F :: 0x2A :: after ∧
        continuationLeader leader = before ++ 0x20 :: 0x2A :: after := by
  fun_induction continuationLeader leader with
  | case1 => exact Or.inl rfl
  | case2 => exact Or.inl rfl
  | case3 unit next rest opens =>
    rw [Bool.and_eq_true, decide_eq_true_eq, decide_eq_true_eq] at opens
    obtain ⟨rfl, rfl⟩ := opens
    exact Or.inr ⟨[], rest, rfl, rfl⟩
  | case4 unit next rest _ inductionHypothesis =>
    rcases inductionHypothesis with same | ⟨before, after, whole, changed⟩
    · exact Or.inl (congrArg (unit :: ·) same)
    · exact Or.inr ⟨unit :: before, after, congrArg (unit :: ·) whole, congrArg (unit :: ·) changed⟩

theorem continuationLeader_free {leader : Text} (free : Notice.Free leader) :
    Notice.Free (continuationLeader leader) := by
  rcases continuationLeader_cases leader with same | ⟨before, after, rfl, changed⟩
  · rw [same]
    exact free
  · have beforeFree : Notice.Free before := free.of_infix (List.prefix_append _ _).isInfix
    have afterFree : Notice.Free after :=
      free.of_infix ⟨before ++ [0x2F, 0x2A], [], by simp⟩
    have spaced : Notice.Free (before ++ [0x20]) := beforeFree.append_noEnd (by decide)
    have starred := spaced.append_cons afterFree 0x2A (by decide)
    rw [List.append_assoc] at starred
    exact changed ▸ starred

/-- No notice ends in white space. -/
theorem noEnd_of_blank (text : Text) (areBlank : ∀ unit ∈ text, unit.isBlank = true) :
    Notice.NoEnd text := by
  have notBlank : ∀ nameEnd ∈ Notice.nameEnds, nameEnd ≠ [] ∧
      nameEnd.any CodeUnit.isBlank = false := by decide
  intro nameEnd isEnd
  obtain ⟨notEmpty, unlike⟩ := notBlank nameEnd isEnd
  rw [List.any_eq_false] at unlike
  refine ⟨fun isPart => ?_, fun unit isFirst member => ?_⟩
  · obtain ⟨unit, others, rfl⟩ := List.exists_cons_of_ne_nil notEmpty
    exact unlike unit List.mem_cons_self (areBlank unit (isPart.subset List.mem_cons_self))
  · exact unlike unit member (areBlank unit (List.mem_of_head? isFirst))

/-- A line reads as no line of a license and not as an empty one. -/
def Unread (leader : Text) (line : Line) : Prop :=
  ∀ expected ∈ [] :: LicenseEntry.apache, lineReads leader expected line = false

/-- A line with a notice is no line of a license. -/
theorem unread_of_notice {leader : Text} (free : Notice.Free leader) (before text : Text)
    {notice : Notice} (reads : Notice.read? text = some notice) (start : Nat)
    (ending : Option Newline) : Unread leader ⟨start, before ++ text, ending⟩ := by
  have noEnd : ∀ expected ∈ [] :: LicenseEntry.apache, Notice.NoEnd expected := by decide +kernel
  intro expected isExpected
  rw [lineReads, beq_eq_false_iff_ne]
  intro same
  obtain ⟨written, behind, rfl, isWritten⟩ := Notice.exists_written_of_read? _ _ reads
  obtain ⟨_, expectedWhole, _, _⟩ := (leader ++ expected).exists_trimEnd
  obtain ⟨blanks, whole, areBlank, _⟩ := (before ++ (written ++ behind)).exists_trimEnd
  have expectedFree : Notice.Free (leader ++ expected) :=
    free.append_noEnd (noEnd expected isExpected)
  have trimmedFree : Notice.Free (Text.trimEnd (leader ++ expected)) :=
    expectedFree.of_infix ⟨[], _, by rw [List.nil_append]; exact expectedWhole.symm⟩
  have wholeFree := trimmedFree.append_noEnd (noEnd_of_blank blanks areBlank)
  rw [← same, ← whole] at wholeFree
  exact wholeFree notice written isWritten ⟨before, behind, List.append_assoc _ _ _⟩

/-! ### Long texts -/

/-- The place of the long text of a license on the lines after a given one. -/
def longFormBelow (identifier leader : Text) (below : List Line) :
    Except LintError (Option Span) :=
  match LicenseEntry.ofIdentifier identifier, below with
  | .unknown, _ => .ok none
  | _, [] => .ok none
  | .reserved, _ :: _ => .error (.reservedIdentifier identifier)
  | .known expected, first :: rest =>
    let isBlank := lineReads leader [] first
    let start := if isBlank then first.stop else first.start
    let candidates := if isBlank then rest else first :: rest
    .ok ((endOfLines? leader start expected candidates).map fun stop => ⟨start, stop⟩)

theorem findLongForm_eq (content identifier : Text) (number position : Nat) (line : Line)
    (isLine : (Lines.ofText content).all[number]? = some line) (after : line.start ≤ position)
    (before : position ≤ line.stop) :
    findLongForm (Lines.ofText content) identifier position =
      longFormBelow identifier (continuationLeader (content.slice line.start position))
        ((Lines.ofText content).all.drop (number + 1)) := by
  have looked := Lines.lineAt_eq_ok content number line isLine position after before
  have lineStart : (((Lines.ofText content).all[number]?).map Line.start).getD 0 = line.start := by
    rw [isLine]
    rfl
  rw [findLongForm.eq_def, longFormBelow.eq_def]
  cases LicenseEntry.ofIdentifier identifier with
  | unknown => rfl
  | reserved =>
    simp only [looked, bind, Except.bind]
    cases (Lines.ofText content).all.drop (number + 1) <;> rfl
  | known expected =>
    simp only [looked, bind, Except.bind, lineStart]
    cases (Lines.ofText content).all.drop (number + 1) <;> rfl

/-- All entries with lines hold the lines of one license. -/
theorem LicenseEntry.eq_apache (identifier : Text) (expected : List Text)
    (entry : ofIdentifier identifier = known expected) : expected = apache := by
  rw [ofIdentifier] at entry
  split at entry
  · cases entry
    rfl
  · split at entry <;> cases entry

/-- The last line of a license is looked for no further than the first line that cannot be one of
its lines. -/
theorem endOfLines?_unread (leader : Text) (stop : Nat) (expected : List Text) (common : List Line)
    (line other : Line) (more others : List Line) (isPart : expected ⊆ LicenseEntry.apache)
    (unread : Unread leader line) (otherUnread : Unread leader other) :
    endOfLines? leader stop expected (common ++ line :: more) =
      endOfLines? leader stop expected (common ++ other :: others) := by
  induction expected generalizing stop common with
  | nil => simp only [endOfLines?]
  | cons text rest inductionHypothesis =>
    obtain ⟨isText, restPart⟩ := List.cons_subset.mp isPart
    cases common with
    | nil =>
      simp only [List.nil_append, endOfLines?, unread text (List.mem_cons_of_mem _ isText),
        otherUnread text (List.mem_cons_of_mem _ isText), Bool.false_eq_true, if_false]
    | cons first common =>
      simp only [List.cons_append, endOfLines?, inductionHypothesis _ common restPart]

theorem longFormBelow_unread (identifier leader : Text) (common : List Line) (line other : Line)
    (more others : List Line) (sameStart : line.start = other.start) (unread : Unread leader line)
    (otherUnread : Unread leader other) :
    longFormBelow identifier leader (common ++ line :: more) =
      longFormBelow identifier leader (common ++ other :: others) := by
  rw [longFormBelow.eq_def, longFormBelow.eq_def]
  cases entry : LicenseEntry.ofIdentifier identifier with
  | unknown => rfl
  | reserved => cases common <;> rfl
  | known expected =>
    cases LicenseEntry.eq_apache identifier expected entry
    cases common with
    | nil =>
      have notBlank := unread [] List.mem_cons_self
      have otherNotBlank := otherUnread [] List.mem_cons_self
      have same := endOfLines?_unread leader line.start LicenseEntry.apache [] line other more
        others (List.Subset.refl _) unread otherUnread
      simp only [List.nil_append] at same ⊢
      simp only [notBlank, otherNotBlank, Bool.false_eq_true, if_false, same, ← sameStart]
    | cons first common =>
      have same (start : Nat) (before : List Line) :=
        endOfLines?_unread leader start LicenseEntry.apache before line other more others
          (List.Subset.refl _) unread otherUnread
      have whole := same first.start (first :: common)
      simp only [List.cons_append] at whole ⊢
      split
      · rw [same]
      · rw [whole]

/-- Where a long text is found: its lines are read from the first line on, or from the next one if the
first has nothing but the leader. -/
theorem exists_of_longFormBelow (identifier leader : Text) (below : List Line) (longForm : Span)
    (finds : longFormBelow identifier leader below = .ok (some longForm)) :
    ∃ first rest, below = first :: rest ∧
      (lineReads leader [] first = true ∧ longForm.start = first.stop ∧
          endOfLines? leader first.stop LicenseEntry.apache rest = some longForm.stop ∨
        lineReads leader [] first = false ∧ longForm.start = first.start ∧
          endOfLines? leader first.start LicenseEntry.apache (first :: rest) =
            some longForm.stop) := by
  rw [longFormBelow.eq_def] at finds
  split at finds
  · cases finds
  · cases finds
  · cases finds
  case h_4 expected first rest entry =>
    cases LicenseEntry.eq_apache identifier expected entry
    obtain ⟨stop, isStop, rfl⟩ := Option.map_eq_some_iff.mp (Except.ok.inj finds)
    refine ⟨first, rest, rfl, ?_⟩
    cases isBlank : lineReads leader [] first with
    | true => exact Or.inl ⟨rfl, rfl, by rwa [isBlank] at isStop⟩
    | false => exact Or.inr ⟨rfl, rfl, by rwa [isBlank] at isStop⟩

/-- A long text begins with one of the lines, or at the end of one, and ends with one. -/
theorem longFormBelow_eq_some (identifier leader : Text) (below : List Line) (longForm : Span)
    (finds : longFormBelow identifier leader below = .ok (some longForm)) :
    ∃ first ∈ below, ∃ last ∈ below,
      (longForm.start = first.start ∨ longForm.start = first.stop) ∧ longForm.stop = last.stop := by
  have ends (stop found : Nat) (lines : List Line)
      (isFound : endOfLines? leader stop LicenseEntry.apache lines = some found) :
      ∃ last ∈ lines, found = last.stop := by
    cases lines with
    | nil => cases isFound
    | cons line more =>
      rw [LicenseEntry.apache, endOfLines?] at isFound
      split at isFound
      · rcases endOfLines?_eq_some _ _ _ _ _ isFound with rfl | ⟨last, isLast, rfl⟩
        · exact ⟨line, List.mem_cons_self, rfl⟩
        · exact ⟨last, List.mem_cons_of_mem _ isLast, rfl⟩
      · cases isFound
  obtain ⟨first, rest, rfl, ⟨_, start, isStop⟩ | ⟨_, start, isStop⟩⟩ :=
    exists_of_longFormBelow identifier leader below longForm finds
  · obtain ⟨last, isLast, stop⟩ := ends _ _ _ isStop
    exact ⟨first, List.mem_cons_self, last, List.mem_cons_of_mem _ isLast, Or.inr start, stop⟩
  · obtain ⟨last, isLast, stop⟩ := ends _ _ _ isStop
    exact ⟨first, List.mem_cons_self, last, isLast, Or.inl start, stop⟩

/-! ### What is beneath a notice -/

/-- What stands beneath a notice. -/
structure Beneath where
  license : Option LicenseLine
  longForm : Option Span

/-- What is found on the lines after that of a notice. -/
def beneath (leader : Text) (below : List Line) : Except LintError Beneath :=
  match below.head?.bind (Header.licenseOnLine? (continuationLeader leader)) with
  | none =>
    (longFormBelow defaultLicense (continuationLeader leader) below).map fun longForm =>
      ⟨none, longForm⟩
  | some license =>
    (longFormBelow license.identifier (continuationLeader (continuationLeader leader))
      below.tail).map fun longForm => ⟨some license, longForm⟩

/-- What is found is a license identifier or not, and then the long text below that. -/
theorem beneath_eq_ok (leader : Text) (below : List Line) (found : Beneath)
    (finds : beneath leader below = .ok found) :
    (found.license = none ∧
        below.head?.bind (Header.licenseOnLine? (continuationLeader leader)) = none ∧
        longFormBelow defaultLicense (continuationLeader leader) below = .ok found.longForm) ∨
      ∃ license next rest, found.license = some license ∧ below = next :: rest ∧
        Header.licenseOnLine? (continuationLeader leader) next = some license ∧
        longFormBelow license.identifier (continuationLeader (continuationLeader leader)) rest =
          .ok found.longForm := by
  rw [beneath] at finds
  split at finds
  case h_1 reads =>
    obtain ⟨longForm, isLongForm, rfl⟩ := exists_of_map_eq_ok _ _ _ finds
    exact Or.inl ⟨rfl, reads, isLongForm⟩
  case h_2 license reads =>
    obtain ⟨longForm, isLongForm, rfl⟩ := exists_of_map_eq_ok _ _ _ finds
    obtain ⟨next, isNext, reads⟩ := Option.bind_eq_some_iff.mp reads
    cases below with
    | nil => cases isNext
    | cons first rest =>
      cases isNext
      exact Or.inr ⟨license, _, rest, rfl, rfl, reads, isLongForm⟩

/-- A line with another notice ends what is found beneath a notice. -/
theorem beneath_unread {leader : Text} (common : List Line) (line other : Line)
    (more others : List Line) (sameStart : line.start = other.start)
    (unread : ∀ leader : Text, Notice.Free leader → Unread leader line)
    (otherUnread : ∀ leader : Text, Notice.Free leader → Unread leader other)
    (free : Notice.Free leader)
    (noLicense : common = [] →
      Header.licenseOnLine? (continuationLeader leader) line = none ∧
        Header.licenseOnLine? (continuationLeader leader) other = none) :
    beneath leader (common ++ line :: more) = beneath leader (common ++ other :: others) := by
  have onceFree := continuationLeader_free free
  have twiceFree := continuationLeader_free onceFree
  have unchanged (identifier : Text) (before : List Line) :=
    longFormBelow_unread identifier (continuationLeader leader) before line other more others
      sameStart (unread _ onceFree) (otherUnread _ onceFree)
  have unchangedTwice (identifier : Text) (before : List Line) :=
    longFormBelow_unread identifier (continuationLeader (continuationLeader leader)) before line
      other more others sameStart (unread _ twiceFree) (otherUnread _ twiceFree)
  cases common with
  | nil =>
    obtain ⟨none, otherNone⟩ := noLicense rfl
    rw [List.nil_append, List.nil_append, beneath, beneath, List.head?_cons, List.head?_cons,
      Option.bind_some, Option.bind_some, none, otherNone]
    dsimp only
    rw [show line :: more = [] ++ line :: more from rfl, unchanged, List.nil_append]
  | cons first common =>
    rw [List.cons_append, List.cons_append, beneath, beneath, List.head?_cons, List.head?_cons,
      Option.bind_some]
    cases Header.licenseOnLine? (continuationLeader leader) first with
    | none =>
      dsimp only
      rw [← List.cons_append, unchanged, List.cons_append]
    | some license =>
      dsimp only
      rw [List.tail_cons, List.tail_cons, unchangedTwice]

/-! ### Moved lines -/

/-- A license identifier moved to the right. -/
def LicenseLine.shift (license : LicenseLine) (distance : Nat) : LicenseLine :=
  { license with start := license.start + distance }

/-- What stands beneath a notice, moved to the right. -/
def Beneath.shift (found : Beneath) (distance : Nat) : Beneath :=
  ⟨found.license.map fun license => license.shift distance,
    found.longForm.map fun longForm => longForm.shift distance⟩

theorem LicenseLine.read?_shift (start distance : Nat) (text : Text) :
    read? (start + distance) text =
      (read? start text).map fun license => license.shift distance := by
  rw [read?, read?]
  cases Text.after? licenseTag text with
  | none => rfl
  | some rest =>
    simp only [Option.bind_eq_bind, Option.bind_some]
    cases (Text.trimEnd (Notice.skipSpaces rest)).head? with
    | none => rfl
    | some unit =>
      rw [Option.bind_some, Option.bind_some]
      split <;> rfl

theorem licenseOnLine?_shift (leader : Text) (line : Line) (distance : Nat) :
    Header.licenseOnLine? leader (line.shift distance) =
      (Header.licenseOnLine? leader line).map fun license => license.shift distance := by
  rw [Header.licenseOnLine?, Header.licenseOnLine?]
  show (Text.after? leader line.text).bind _ = _
  cases Text.after? leader line.text with
  | none => rfl
  | some rest =>
    rw [Option.bind_eq_bind, Option.bind_some, Option.bind_some, ← LicenseLine.read?_shift,
      Nat.add_right_comm]
    rfl

theorem endOfLines?_shift (leader : Text) (stop distance : Nat) (expected : List Text)
    (lines : List Line) :
    endOfLines? leader (stop + distance) expected (lines.map fun line => line.shift distance) =
      (endOfLines? leader stop expected lines).map fun found => found + distance := by
  induction expected generalizing stop lines with
  | nil => simp only [endOfLines?, Option.map_some]
  | cons text rest inductionHypothesis =>
    cases lines with
    | nil => rfl
    | cons line more =>
      have reads : lineReads leader text (line.shift distance) = lineReads leader text line := rfl
      rw [List.map_cons, endOfLines?, endOfLines?, reads]
      split
      · rw [Line.stop_shift, inductionHypothesis]
      · rfl

theorem longFormBelow_shift (identifier leader : Text) (below : List Line) (distance : Nat) :
    longFormBelow identifier leader (below.map fun line => line.shift distance) =
      (longFormBelow identifier leader below).map fun longForm =>
        longForm.map fun span => span.shift distance := by
  rw [longFormBelow.eq_def, longFormBelow.eq_def]
  cases LicenseEntry.ofIdentifier identifier with
  | unknown => rfl
  | reserved => cases below <;> rfl
  | known expected =>
    cases below with
    | nil => rfl
    | cons first rest =>
      have reads : lineReads leader [] (first.shift distance) = lineReads leader [] first := rfl
      have moved (stop : Nat) (lines : List Line) :=
        endOfLines?_shift leader stop distance expected lines
      have whole := moved first.start (first :: rest)
      simp only [List.map_cons, reads] at whole ⊢
      split
      · rw [Line.stop_shift, moved]
        cases endOfLines? leader first.stop expected rest <;> rfl
      · rw [show (first.shift distance).start = first.start + distance from rfl, whole]
        cases endOfLines? leader first.start expected (first :: rest) <;> rfl

theorem beneath_shift (leader : Text) (below : List Line) (distance : Nat) :
    beneath leader (below.map fun line => line.shift distance) =
      (beneath leader below).map fun found => found.shift distance := by
  have heads : (below.map fun line => line.shift distance).head?.bind
      (Header.licenseOnLine? (continuationLeader leader)) =
        (below.head?.bind (Header.licenseOnLine? (continuationLeader leader))).map
          fun license => license.shift distance := by
    cases below with
    | nil => rfl
    | cons first rest => exact licenseOnLine?_shift _ _ _
  have tails : (below.map fun line => line.shift distance).tail =
      below.tail.map fun line => line.shift distance := List.map_tail.symm
  rw [beneath, beneath, heads, tails]
  cases below.head?.bind (Header.licenseOnLine? (continuationLeader leader)) with
  | none =>
    dsimp only [Option.map_none]
    rw [longFormBelow_shift]
    cases longFormBelow defaultLicense (continuationLeader leader) below <;> rfl
  | some license =>
    have sameIdentifier : (license.shift distance).identifier = license.identifier := rfl
    dsimp only [Option.map_some]
    rw [longFormBelow_shift, sameIdentifier]
    cases longFormBelow license.identifier (continuationLeader (continuationLeader leader))
      below.tail <;> rfl

end Copyright

end SourceLint
