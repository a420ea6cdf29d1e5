/-
This file proves that the versions found in a text are where they are said to be. Each of them
begins with a digit and lies in the text; as the check proposes no replacement, its warnings are
sound.
-/
import Mathlib.Data.List.TakeWhile
import SourceLint.Check.HardcodedVersion
import SourceLint.Proofs.Linter.Placed
import SourceLint.Proofs.Text.Cut

namespace SourceLint.HardcodedVersion

/-! ### Groups -/

/-- A group of a version is one digit, or two. -/
structure IsGroup (group : Text) : Prop where
  length : group.length = 1 ∨ group.length = 2
  digits : ∀ unit ∈ group, unit.isDigit = true

/-- A text does not begin with a digit. -/
def NoDigitFirst (text : Text) : Prop := ∀ unit ∈ text.head?, ¬unit.isDigit = true

instance (text : Text) : Decidable (NoDigitFirst text) := Option.decidableForallMem text.head?

/-- A text begins with a point and a group. -/
def BeginsGroup (text : Text) : Prop :=
  ∃ group rest, IsGroup group ∧ NoDigitFirst rest ∧ text = 0x2E :: (group ++ rest)

theorem IsGroup.exists_cons {group : Text} (isGroup : IsGroup group) :
    ∃ digit others, group = digit :: others ∧ digit.isDigit = true := by
  cases group with
  | nil => exact absurd isGroup.length (by decide)
  | cons digit others => exact ⟨digit, others, rfl, isGroup.digits digit List.mem_cons_self⟩

theorem noDigitFirst_point (rest : Text) : NoDigitFirst (0x2E :: rest) := by
  rintro unit ⟨⟩
  decide

/-- A group goes as far as there are digits. -/
theorem group?_eq_some_iff {text group rest : Text} :
    group? text = some (group, rest) ↔
      IsGroup group ∧ NoDigitFirst rest ∧ text = group ++ rest := by
  rw [group?, Option.ite_none_right_eq_some, Text.drop_length_takeWhile, Bool.or_eq_true,
    decide_eq_true_eq, decide_eq_true_eq]
  constructor
  · rintro ⟨length, same⟩
    cases same
    exact ⟨⟨length, fun unit => List.mem_takeWhile_imp⟩, Text.head?_dropWhile_stops _ _,
      List.takeWhile_append_dropWhile.symm⟩
  · rintro ⟨isGroup, stops, rfl⟩
    have taken := Text.takeWhile_append_of_stops isGroup.digits stops
    rw [← Text.drop_length_takeWhile, taken, List.drop_left]
    exact ⟨isGroup.length, rfl⟩

theorem afterPoint?_eq_some_iff {text rest : Text} :
    afterPoint? text = some rest ↔ text = 0x2E :: rest := by
  cases text with
  | nil => simp [afterPoint?]
  | cons unit others =>
    rw [afterPoint?, Option.ite_none_right_eq_some, Option.some_inj, List.cons.injEq]
    rfl

/-- A further group is read where a point and a group stand. -/
theorem furtherGroup?_eq_some_iff {text group rest : Text} :
    (afterPoint? text).bind group? = some (group, rest) ↔
      IsGroup group ∧ NoDigitFirst rest ∧ text = 0x2E :: (group ++ rest) := by
  simp only [Option.bind_eq_some_iff, afterPoint?_eq_some_iff, group?_eq_some_iff]
  constructor
  · rintro ⟨_, rfl, isGroup, stops, rfl⟩
    exact ⟨isGroup, stops, rfl⟩
  · rintro ⟨isGroup, stops, rfl⟩
    exact ⟨_, rfl, isGroup, stops, rfl⟩

/-! ### One version -/

namespace Groups

/-- The groups with the points between them, as they are written. -/
def text (groups : Groups) : Text :=
  groups.major ++ 0x2E :: groups.minor ++
    match groups.patch with
    | some patch => 0x2E :: patch
    | none => []

/-- Each of the groups is one or two digits. -/
structure WellFormed (groups : Groups) : Prop where
  major : IsGroup groups.major
  minor : IsGroup groups.minor
  patch : ∀ patch ∈ groups.patch, IsGroup patch

theorem length_text (groups : Groups) : groups.text.length = groups.length := by
  obtain ⟨major, minor, patch⟩ := groups
  cases patch <;> simp [text, length] <;> omega

/-- A version is read where its groups stand and no digit comes behind them; a version without a
third group ends where none can be read. -/
theorem read?_eq_some_iff {content : Text} {groups : Groups} :
    read? content = some groups ↔
      groups.WellFormed ∧ ∃ after, content = groups.text ++ after ∧ NoDigitFirst after ∧
        (groups.patch = none → ¬BeginsGroup after) := by
  obtain ⟨major, minor, patch⟩ := groups
  simp only [read?, Option.bind_eq_bind, Option.bind_eq_some_iff, Option.pure_def,
    Option.some.injEq, Prod.exists, group?_eq_some_iff, afterPoint?_eq_some_iff, Groups.mk.injEq]
  constructor
  · rintro ⟨_, _, ⟨isMajor, -, rfl⟩, _, rfl, _, afterMinor, ⟨isMinor, stops, rfl⟩, rfl, rfl, third⟩
    cases patch with
    | none =>
      refine ⟨⟨isMajor, isMinor, nofun⟩, afterMinor, by simp [text], stops, fun _ begins => ?_⟩
      obtain ⟨group, rest, further⟩ := begins
      rw [furtherGroup?_eq_some_iff.mpr further] at third
      cases third
    | some patch =>
      obtain ⟨⟨_, afterPatch⟩, reads, rfl⟩ := Option.map_eq_some_iff.mp third
      obtain ⟨isPatch, stopsBehind, rfl⟩ := furtherGroup?_eq_some_iff.mp reads
      refine ⟨⟨isMajor, isMinor, ?_⟩, afterPatch, by simp [text], stopsBehind, nofun⟩
      rintro _ ⟨⟩
      exact isPatch
  · rintro ⟨⟨isMajor, isMinor, isPatch⟩, after, rfl, stops, last⟩
    cases patch with
    | none =>
      refine ⟨major, _, ⟨isMajor, noDigitFirst_point _, ?_⟩, minor ++ after, rfl, minor, after,
        ⟨isMinor, stops, rfl⟩, rfl, rfl, ?_⟩
      · simp [text]
      · rw [Option.map_eq_none_iff, Option.eq_none_iff_forall_ne_some]
        rintro ⟨group, rest⟩ reads
        exact last rfl ⟨group, rest, furtherGroup?_eq_some_iff.mp reads⟩
    | some patch =>
      refine ⟨major, _, ⟨isMajor, noDigitFirst_point _, ?_⟩, minor ++ 0x2E :: (patch ++ after), rfl,
        minor, 0x2E :: (patch ++ after), ⟨isMinor, noDigitFirst_point _, rfl⟩, rfl, rfl, ?_⟩
      · simp [text]
      · rw [furtherGroup?_eq_some_iff.mpr ⟨isPatch patch rfl, stops, rfl⟩]
        rfl

/-- A version begins with a digit. -/
theorem WellFormed.exists_cons {groups : Groups} (wellFormed : groups.WellFormed) :
    ∃ digit others, groups.text = digit :: others ∧ digit.isDigit = true := by
  obtain ⟨digit, others, same, isDigit⟩ := wellFormed.major.exists_cons
  exact ⟨digit, _, by rw [text, same, List.cons_append, List.cons_append], isDigit⟩

end Groups

/-! ### Versions in a text -/

/-- A version is found where its groups are read, at the start of what comes after some units. -/
def Occurrence.At (occurrence : Occurrence) (position : Nat) (text : Text) : Prop :=
  ∃ before after, text = before ++ after ∧ occurrence.start = position + before.length ∧
    Groups.read? after = some occurrence.groups

/-- Whether a digit stands right before what comes after some units; if there are none, that is said
by a flag. -/
def digitBefore (afterDigit : Bool) (before : Text) : Bool :=
  (before.getLast?.map CodeUnit.isDigit).getD afterDigit

theorem digitBefore_cons (afterDigit : Bool) (unit : CodeUnit) (before : Text) :
    digitBefore afterDigit (unit :: before) = digitBefore unit.isDigit before := by
  rw [digitBefore, digitBefore, List.getLast?_cons]
  cases before.getLast? <;> rfl

/-- Every version of a text is found where its groups are read, behind the units that are skipped and
not right behind a digit. -/
theorem exists_of_mem_occurrencesFrom {position skip : Nat} {afterDigit : Bool} {text : Text}
    {occurrence : Occurrence}
    (member : occurrence ∈ occurrencesFrom position skip afterDigit text) :
    ∃ before after, text = before ++ after ∧ occurrence.start = position + before.length ∧
      skip ≤ before.length ∧ digitBefore afterDigit before = false ∧
      Groups.read? after = some occurrence.groups := by
  fun_induction occurrencesFrom position skip afterDigit text with
  | case1 => exact absurd member List.not_mem_nil
  | case2 position afterDigit unit rest skip inductionHypothesis =>
    obtain ⟨before, after, rfl, start, behind, noDigit, reads⟩ := inductionHypothesis member
    exact ⟨unit :: before, after, rfl, by rw [start, List.length_cons]; omega,
      Nat.succ_le_succ behind, (digitBefore_cons ..).trans noDigit, reads⟩
  | case3 position afterDigit unit rest groups reads inductionHypothesis =>
    rcases List.mem_cons.mp member with rfl | later
    · obtain ⟨noDigit, reads⟩ := Option.ite_none_left_eq_some.mp reads
      exact ⟨[], unit :: rest, rfl, rfl, Nat.le_refl _, Bool.eq_false_iff.mpr noDigit, reads⟩
    · obtain ⟨before, after, rfl, start, -, noDigit, reads⟩ := inductionHypothesis later
      exact ⟨unit :: before, after, rfl, by rw [start, List.length_cons]; omega, Nat.zero_le _,
        (digitBefore_cons ..).trans noDigit, reads⟩
  | case4 position afterDigit unit rest _ inductionHypothesis =>
    obtain ⟨before, after, rfl, start, -, noDigit, reads⟩ := inductionHypothesis member
    exact ⟨unit :: before, after, rfl, by rw [start, List.length_cons]; omega, Nat.zero_le _,
      (digitBefore_cons ..).trans noDigit, reads⟩

/-- Every version of a text is found where its groups are read. -/
theorem at_of_mem_occurrencesFrom (position skip : Nat) (afterDigit : Bool) (text : Text)
    (occurrence : Occurrence)
    (member : occurrence ∈ occurrencesFrom position skip afterDigit text) :
    occurrence.At position text := by
  obtain ⟨before, after, whole, start, -, -, reads⟩ := exists_of_mem_occurrencesFrom member
  exact ⟨before, after, whole, start, reads⟩

/-- A version lies in the text, and begins with a digit. -/
theorem Occurrence.At.placed {occurrence : Occurrence} {content : Text}
    (found : occurrence.At 0 content) : occurrence.span.PlacedIn content := by
  obtain ⟨before, after, rfl, start, reads⟩ := found
  obtain ⟨wellFormed, rest, whole, -⟩ := Groups.read?_eq_some_iff.mp reads
  obtain ⟨unit, others, first, isDigit⟩ := wellFormed.exists_cons
  rw [Nat.zero_add] at start
  refine ⟨Nat.le_add_right _ _, ?_, ?_⟩
  · show occurrence.start + occurrence.groups.length ≤ _
    rw [start, List.length_append, whole, List.length_append, Groups.length_text]
    omega
  · rw [Occurrence.span, start]
    refine Text.not_splitsBreak_of_ne _ _ ?_
    rw [List.getElem?_append_right (Nat.le_refl _), Nat.sub_self, whole, first]
    rintro ⟨⟩
    exact absurd isDigit (by decide)

/-! ### The check -/

/-- The warnings on repeated versions are sound, whatever the version of the project is. -/
theorem sound_check (versionFile : Text) (version : Except LintError Version) (source : Source)
    (warnings : List Warning) (checks : check versionFile version source = .ok warnings) :
    Sound source.content warnings := by
  rw [check] at checks
  split at checks
  · cases checks
    exact ⟨by simp, Replacement.apart_of_row _ (by simp)⟩
  · cases version with
    | error error => cases checks
    | ok version =>
      cases checks
      refine ⟨fun warning member => ?_, Replacement.apart_of_row _ ?_⟩
      · obtain ⟨occurrence, found, rfl⟩ := List.mem_map.mp member
        have atPlace := at_of_mem_occurrencesFrom _ _ _ _ _ (List.mem_filter.mp found).1
        exact .of_parts atPlace.placed (by simp [HardcodedVersion.warning])
          (by simp [HardcodedVersion.warning])
      · rw [List.flatMap_eq_nil_iff.mpr (by simp [warning])]
        exact .nil

end SourceLint.HardcodedVersion
