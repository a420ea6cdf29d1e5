/-
This file says which versions the search finds in a text. What it finds are versions that stand by
themselves, in order and apart. It misses none with another sign than a digit or a point before it:
what the search passes over at once is made of digits and points, so it never goes beyond such a
sign. A third group of more than two digits does not count, and then the first two are a version.
-/
import SourceLint.Proofs.Check.HardcodedVersion
import SourceLint.Proofs.Linter.Splice

namespace SourceLint.HardcodedVersion

/-! ### Order -/

theorem Groups.length_pos (groups : Groups) : 0 < groups.length := by
  rw [Groups.length]
  omega

/-- Each version begins behind those before it. -/
theorem occurrencesFrom_pairwise (position skip : Nat) (afterDigit : Bool) (text : Text) :
    (occurrencesFrom position skip afterDigit text).Pairwise fun earlier later =>
      earlier.span.stop ≤ later.span.start := by
  fun_induction occurrencesFrom position skip afterDigit text with
  | case1 => exact .nil
  | case2 _ _ _ _ _ inductionHypothesis => exact inductionHypothesis
  | case3 position _ unit rest groups _ inductionHypothesis =>
    refine .cons (fun later member => ?_) inductionHypothesis
    obtain ⟨before, -, -, start, behind, -⟩ := exists_of_mem_occurrencesFrom member
    have positive := groups.length_pos
    change position + groups.length ≤ later.start
    omega
  | case4 _ _ _ _ _ inductionHypothesis => exact inductionHypothesis

/-! ### Nothing is missed -/

/-- A unit that can be in a version. -/
def isVersionUnit (unit : CodeUnit) : Bool := unit.isDigit || unit == 0x2E

theorem Groups.WellFormed.isVersionUnit {groups : Groups} (wellFormed : groups.WellFormed) :
    ∀ unit ∈ groups.text, isVersionUnit unit = true := by
  have digits {group : Text} (isGroup : IsGroup group) :
      ∀ unit ∈ group, HardcodedVersion.isVersionUnit unit = true := fun unit member => by
    rw [HardcodedVersion.isVersionUnit, isGroup.digits unit member, Bool.true_or]
  have point {rest : Text} (others : ∀ unit ∈ rest, HardcodedVersion.isVersionUnit unit = true) :
      ∀ unit ∈ (0x2E : CodeUnit) :: rest, HardcodedVersion.isVersionUnit unit = true :=
    List.forall_mem_cons.mpr ⟨rfl, others⟩
  obtain ⟨major, minor, patch⟩ := groups
  refine List.forall_mem_append.mpr
    ⟨List.forall_mem_append.mpr ⟨digits wellFormed.major, point (digits wellFormed.minor)⟩, ?_⟩
  cases patch with
  | none => exact List.forall_mem_nil _
  | some patch => exact point (digits (wellFormed.patch patch rfl))

/-- A version that begins before a unit which can be in none ends before it. -/
theorem Groups.length_lt_of_read? {before after : Text} {groups : Groups} {last : CodeUnit}
    (reads : read? (before ++ after) = some groups) (isLast : before.getLast? = some last)
    (foreign : isVersionUnit last = false) : groups.length < before.length := by
  obtain ⟨wellFormed, rest, whole, -⟩ := read?_eq_some_iff.mp reads
  by_contra beyond
  rw [← length_text, Nat.not_lt] at beyond
  have isPrefix : before <+: groups.text :=
    List.prefix_of_prefix_length_le ⟨after, rfl⟩ ⟨rest, whole.symm⟩ beyond
  have within := wellFormed.isVersionUnit last
    (isPrefix.subset (List.mem_of_getLast? isLast))
  rw [foreign] at within
  cases within

/-- A version is found where it can be read, right behind a unit that can be in none. -/
theorem mem_occurrencesFrom_of_read? {groups : Groups} {before after : Text}
    (reads : Groups.read? after = some groups)
    (foreign : ∀ unit ∈ before.getLast?, isVersionUnit unit = false) {position skip : Nat}
    {afterDigit : Bool} (behind : skip ≤ before.length)
    (first : before = [] → afterDigit = false) :
    ⟨position + before.length, groups⟩ ∈
      occurrencesFrom position skip afterDigit (before ++ after) := by
  induction before generalizing position skip afterDigit with
  | nil =>
    obtain rfl := Nat.le_zero.mp behind
    cases first rfl
    cases after with
    | nil => cases reads
    | cons unit rest =>
      rw [List.nil_append, occurrencesFrom]
      simp only [Bool.false_eq_true, if_false, reads]
      exact List.mem_cons_self
  | cons unit before inductionHypothesis =>
    have foreignAfter : ∀ unit ∈ before.getLast?, isVersionUnit unit = false := by
      intro last isLast
      refine foreign last ?_
      rw [List.getLast?_cons, Option.mem_def.mp isLast]
      rfl
    have firstAfter : before = [] → unit.isDigit = false := by
      rintro rfl
      exact (Bool.or_eq_false_iff.mp (foreign unit rfl)).1
    have found {skip : Nat} (behind : skip ≤ before.length) :
        ⟨position + (unit :: before).length, groups⟩ ∈
          occurrencesFrom (position + 1) skip unit.isDigit (before ++ after) := by
      rw [List.length_cons, ← Nat.add_assoc, Nat.add_right_comm]
      exact inductionHypothesis foreignAfter behind firstAfter
    cases skip with
    | succ skip => exact found (Nat.le_of_succ_le_succ behind)
    | zero =>
      rw [List.cons_append, occurrencesFrom]
      split
      case h_1 other readsOther =>
        obtain ⟨-, readsOther⟩ := Option.ite_none_left_eq_some.mp readsOther
        have last := List.getLast?_eq_some_getLast (List.cons_ne_nil unit before)
        have shorter : other.length < (unit :: before).length :=
          Groups.length_lt_of_read? readsOther last (foreign _ last)
        refine List.mem_cons_of_mem _ (found ?_)
        rw [List.length_cons] at shorter
        omega
      case h_2 => exact found (Nat.zero_le _)

/-! ### The versions that are found -/

/-- Digits up to another unit are determined by the text that they begin. -/
theorem eq_of_digits {first second rest others : Text}
    (areDigits : ∀ unit ∈ first, unit.isDigit = true) (stops : NoDigitFirst rest)
    (alsoDigits : ∀ unit ∈ second, unit.isDigit = true) (alsoStops : NoDigitFirst others)
    (same : first ++ rest = second ++ others) : first = second := by
  have taken := congrArg (List.takeWhile CodeUnit.isDigit) same
  rwa [Text.takeWhile_append_of_stops areDigits stops,
    Text.takeWhile_append_of_stops alsoDigits alsoStops] at taken

namespace Groups

/-- Each group is the number of a version. -/
structure Matches (version : Version) (groups : Groups) : Prop where
  major : Text.digitsValue groups.major = version.major
  minor : Text.digitsValue groups.minor = version.minor
  patch : ∀ patch ∈ groups.patch, Text.digitsValue patch = version.patch

theorem agrees_iff (version : Version) (groups : Groups) :
    groups.agrees version = true ↔ groups.Matches version := by
  rw [agrees, Bool.and_eq_true, Bool.and_eq_true, beq_iff_eq, beq_iff_eq, Option.all_eq_true]
  constructor
  · rintro ⟨⟨major, minor⟩, patch⟩
    exact ⟨major, minor, fun group member => eq_of_beq (patch group member)⟩
  · rintro ⟨major, minor, patch⟩
    exact ⟨⟨major, minor⟩, fun group member => beq_iff_eq.mpr (patch group member)⟩

end Groups

/-- A text does not end with a digit. -/
def NoDigitLast (text : Text) : Prop := ∀ unit ∈ text.getLast?, ¬unit.isDigit = true

instance (text : Text) : Decidable (NoDigitLast text) := Option.decidableForallMem text.getLast?

/-- A version stands between two parts of a text, and no digit stands next to it. -/
structure Occurrence.StandsBetween (content before after : Text) (occurrence : Occurrence) :
    Prop where
  wellFormed : occurrence.groups.WellFormed
  content_eq : content = before ++ (occurrence.groups.text ++ after)
  start_eq : occurrence.start = before.length
  noDigitBefore : NoDigitLast before
  noDigitBehind : NoDigitFirst after

/-- The digits behind a point that stands right behind the first two groups of a version. -/
structure Occurrence.ContinuedBy (content patch : Text) (occurrence : Occurrence) : Prop where
  notEmpty : patch ≠ []
  digits : ∀ unit ∈ patch, unit.isDigit = true
  behind : ∃ rest, content.drop occurrence.majorMinorSpan.stop = 0x2E :: (patch ++ rest) ∧
    NoDigitFirst rest

variable {content before after : Text} {version : Version} {occurrence : Occurrence}

/-- What is found has the numbers of the version, stands by itself, and has its third group if there
is one. -/
theorem exists_of_mem_find (member : occurrence ∈ find content version) :
    occurrence.groups.Matches version ∧ ∃ before after,
      occurrence.StandsBetween content before after ∧
        (occurrence.groups.patch = none → ¬BeginsGroup after) := by
  obtain ⟨member, agrees⟩ := List.mem_filter.mp member
  obtain ⟨before, rest, rfl, start, -, noDigit, reads⟩ := exists_of_mem_occurrencesFrom member
  obtain ⟨wellFormed, after, rfl, noDigitBehind, last⟩ := Groups.read?_eq_some_iff.mp reads
  refine ⟨(Groups.agrees_iff _ _).mp agrees, before, after,
    ⟨wellFormed, rfl, by rw [start, Nat.zero_add], fun unit isLast => ?_, noDigitBehind⟩, last⟩
  rw [digitBefore, Option.mem_def.mp isLast] at noDigit
  exact Bool.eq_false_iff.mp noDigit

namespace Occurrence.StandsBetween

variable (stands : occurrence.StandsBetween content before after)

include stands

theorem text_span : occurrence.span.text content = occurrence.groups.text := by
  rw [Span.text, span, stands.start_eq, ← Groups.length_text, stands.content_eq]
  exact Text.slice_append _ _ _

/-- What stands behind the first two groups. -/
theorem drop_majorMinorSpan :
    content.drop occurrence.majorMinorSpan.stop =
      match occurrence.groups.patch with
      | some patch => 0x2E :: (patch ++ after)
      | none => after := by
  have width : occurrence.majorMinorSpan.stop =
      (before ++ (occurrence.groups.major ++ 0x2E :: occurrence.groups.minor)).length := by
    simp only [majorMinorSpan, stands.start_eq, List.length_append, List.length_cons]
    omega
  have whole : content = (before ++ (occurrence.groups.major ++ 0x2E :: occurrence.groups.minor)) ++
      ((match occurrence.groups.patch with
        | some patch => 0x2E :: patch
        | none => []) ++ after) := by
    rw [stands.content_eq, Groups.text]
    cases occurrence.groups.patch <;> simp only [List.append_assoc]
  rw [width, whole, List.drop_left]
  cases occurrence.groups.patch <;> rfl

theorem text_majorMinorSpan :
    occurrence.majorMinorSpan.text content =
      occurrence.groups.major ++ 0x2E :: occurrence.groups.minor := by
  have width : occurrence.majorMinorSpan =
      ⟨before.length,
        before.length + (occurrence.groups.major ++ 0x2E :: occurrence.groups.minor).length⟩ := by
    simp only [majorMinorSpan, stands.start_eq, List.length_append, List.length_cons, Span.mk.injEq,
      true_and]
    omega
  rw [Span.text, width, stands.content_eq, Groups.text, List.append_assoc]
  exact Text.slice_append _ _ _

theorem text_patchSpan? :
    occurrence.patchSpan?.map (Span.text · content) = occurrence.groups.patch := by
  obtain ⟨start, major, minor, patch⟩ := occurrence
  cases patch with
  | none => rfl
  | some patch =>
    have whole : content = (before ++ (major ++ 0x2E :: minor ++ [0x2E])) ++ (patch ++ after) := by
      rw [stands.content_eq]
      simp [Groups.text]
    have width : (span ⟨start, major, minor, some patch⟩).stop =
        (before ++ (major ++ 0x2E :: minor ++ [0x2E])).length + patch.length := by
      have := stands.start_eq
      simp only [span, Groups.length, List.length_append, List.length_cons, List.length_nil] at this ⊢
      omega
    rw [patchSpan?, Option.map_map, Option.map_some, Function.comp_apply, Span.text, width,
      Nat.add_sub_cancel, whole]
    exact congrArg some (Text.slice_append _ _ _)

/-- A version without a third group to read is found if it has the numbers of the version, unless a
point stands before it. -/
theorem mem_find_iff (noPoint : before.getLast? ≠ some 0x2E)
    (last : occurrence.groups.patch = none → ¬BeginsGroup after) :
    occurrence ∈ find content version ↔ occurrence.groups.Matches version := by
  rw [find, List.mem_filter, Groups.agrees_iff, and_iff_right_iff_imp]
  rintro -
  have reads : Groups.read? (occurrence.groups.text ++ after) = some occurrence.groups :=
    Groups.read?_eq_some_iff.mpr ⟨stands.wellFormed, after, rfl, stands.noDigitBehind, last⟩
  have foreign : ∀ unit ∈ before.getLast?, isVersionUnit unit = false := by
    intro unit isLast
    rw [isVersionUnit, Bool.or_eq_false_iff, beq_eq_false_iff_ne]
    refine ⟨Bool.eq_false_iff.mpr (stands.noDigitBefore unit isLast), ?_⟩
    rintro rfl
    exact noPoint isLast
  have found : ⟨0 + before.length, occurrence.groups⟩ ∈
      occurrencesFrom 0 0 false (before ++ (occurrence.groups.text ++ after)) :=
    mem_occurrencesFrom_of_read? reads foreign (Nat.zero_le _) fun _ => rfl
  rw [Nat.zero_add, ← stands.start_eq, ← stands.content_eq] at found
  exact found

/-- The digits behind a third point are the third group, as far as they are one. -/
theorem patch_of_continuedBy (last : occurrence.groups.patch = none → ¬BeginsGroup after)
    {patch : Text} (continued : occurrence.ContinuedBy content patch) :
    occurrence.groups.patch = if patch.length ≤ 2 then some patch else none := by
  obtain ⟨rest, behind, stops⟩ := continued.behind
  rw [stands.drop_majorMinorSpan] at behind
  have positive := List.length_pos_of_ne_nil continued.notEmpty
  cases third : occurrence.groups.patch with
  | none =>
    rw [third] at behind
    refine (if_neg fun short => ?_).symm
    exact last third ⟨patch, rest, ⟨by omega, continued.digits⟩, stops, behind⟩
  | some group =>
    rw [third] at behind
    have isGroup := stands.wellFormed.patch group third
    obtain rfl : group = patch := eq_of_digits isGroup.digits stands.noDigitBehind
      continued.digits stops (List.cons.inj behind).2
    exact (if_pos (by have := isGroup.length; omega)).symm

end Occurrence.StandsBetween

/-- The versions found in a text are in order and apart. Each stands at its place, by itself, and has
the numbers of the version looked for. None is missed that stands behind neither a digit nor a point
and goes on with no further group. -/
theorem find_exact (content : Text) (version : Version) :
    (find content version).Pairwise
        (fun earlier later => earlier.span.stop ≤ later.span.start) ∧
      (∀ occurrence ∈ find content version,
        occurrence.groups.Matches version ∧
        (∃ before after, occurrence.StandsBetween content before after) ∧
        occurrence.span.text content = occurrence.groups.text ∧
        occurrence.majorMinorSpan.text content =
          occurrence.groups.major ++ 0x2E :: occurrence.groups.minor ∧
        occurrence.patchSpan?.map (Span.text · content) = occurrence.groups.patch) ∧
      ∀ occurrence before after, occurrence.StandsBetween content before after →
        before.getLast? ≠ some 0x2E →
        (occurrence.groups.patch = none →
          ∀ digit rest, after = 0x2E :: digit :: rest → ¬digit.isDigit = true) →
        (occurrence ∈ find content version ↔ occurrence.groups.Matches version) := by
  refine ⟨(occurrencesFrom_pairwise 0 0 false content).sublist List.filter_sublist,
    fun occurrence member => ?_, fun occurrence before after stands noPoint last => ?_⟩
  · obtain ⟨isVersion, before, after, stands, -⟩ := exists_of_mem_find member
    exact ⟨isVersion, ⟨before, after, stands⟩, stands.text_span, stands.text_majorMinorSpan,
      stands.text_patchSpan?⟩
  · refine stands.mem_find_iff noPoint fun noPatch begins => ?_
    obtain ⟨group, rest, isGroup, -, same⟩ := begins
    obtain ⟨digit, others, rfl, isDigit⟩ := isGroup.exists_cons
    exact last noPatch digit (others ++ rest) same isDigit

/-- A text with a version in two groups, one in three groups and a number that is no version. -/
def beside : Text := "v24.6, 24.06.00 of 124.06\n"

theorem find_exact_beside :
    Occurrence.StandsBetween beside "v24.6, " " of 124.06\n" ⟨7, "24", "06", some "00"⟩ ∧
      find beside ⟨24, 6, 0⟩ = [⟨1, "24", "6", none⟩, ⟨7, "24", "06", some "00"⟩] ∧
      ⟨7, "24", "06", some "00"⟩ ∈ find beside ⟨24, 6, 0⟩ := by
  have isGroup : IsGroup "24" ∧ IsGroup "06" ∧ IsGroup "00" :=
    ⟨⟨by decide, by decide⟩, ⟨by decide, by decide⟩, ⟨by decide, by decide⟩⟩
  have stands : Occurrence.StandsBetween beside "v24.6, " " of 124.06\n"
      ⟨7, "24", "06", some "00"⟩ :=
    ⟨⟨isGroup.1, isGroup.2.1, fun _ member => Option.some.inj member ▸ isGroup.2.2⟩,
      by decide +kernel, by decide, by decide +kernel, by decide +kernel⟩
  have found := (find_exact beside ⟨24, 6, 0⟩).2.2 _ _ _ stands (by decide +kernel) nofun
  exact ⟨stands, by decide +kernel, found.mpr ⟨by decide, by decide, by decide⟩⟩

/-- A third group is compared if it has at most two digits. One that has more does not count, and
the first two groups are then found if they have the numbers of the version. -/
theorem find_comparesPatch (content : Text) (version : Version) :
    (∀ occurrence ∈ find content version, ∀ patch, occurrence.ContinuedBy content patch →
        if patch.length ≤ 2 then
          occurrence.groups.patch = some patch ∧ Text.digitsValue patch = version.patch
        else occurrence.groups.patch = none) ∧
      ∀ occurrence before after patch, occurrence.StandsBetween content before after →
        before.getLast? ≠ some 0x2E → occurrence.groups.patch = none →
        occurrence.ContinuedBy content patch → 2 < patch.length →
        (occurrence ∈ find content version ↔ occurrence.groups.Matches version) := by
  refine ⟨fun occurrence member patch continued => ?_,
    fun occurrence before after patch stands noPoint noPatch continued long => ?_⟩
  · obtain ⟨isVersion, before, after, stands, last⟩ := exists_of_mem_find member
    have third := stands.patch_of_continuedBy last continued
    split
    case isTrue short =>
      rw [if_pos short] at third
      exact ⟨third, isVersion.patch patch third⟩
    case isFalse long => rw [third, if_neg long]
  · refine stands.mem_find_iff noPoint fun _ begins => ?_
    obtain ⟨group, rest, isGroup, stops, same⟩ := begins
    obtain ⟨others, behind, stopsOthers⟩ := continued.behind
    rw [stands.drop_majorMinorSpan, noPatch, same] at behind
    obtain rfl : group = patch := eq_of_digits isGroup.digits stops continued.digits stopsOthers
      (List.cons.inj behind).2
    have := isGroup.length
    omega

/-- A text with a third group of one digit and one of three. -/
def shortAndLong : Text := "24.06.1 24.06.123\n"

theorem find_comparesPatch_shortAndLong :
    find shortAndLong ⟨24, 6, 1⟩ = [⟨0, "24", "06", some "1"⟩, ⟨8, "24", "06", none⟩] ∧
      Occurrence.ContinuedBy shortAndLong "1" ⟨0, "24", "06", some "1"⟩ ∧
      Text.digitsValue "1" = 1 ∧
      Occurrence.StandsBetween shortAndLong "24.06.1 " ".123\n" ⟨8, "24", "06", none⟩ ∧
      Occurrence.ContinuedBy shortAndLong "123" ⟨8, "24", "06", none⟩ ∧
      ⟨8, "24", "06", none⟩ ∈ find shortAndLong ⟨24, 6, 1⟩ := by
  have finds : find shortAndLong ⟨24, 6, 1⟩ =
      [⟨0, "24", "06", some "1"⟩, ⟨8, "24", "06", none⟩] := by decide +kernel
  have short : Occurrence.ContinuedBy shortAndLong "1" ⟨0, "24", "06", some "1"⟩ :=
    ⟨by decide, by decide, " 24.06.123\n", by decide +kernel, by decide +kernel⟩
  have long : Occurrence.ContinuedBy shortAndLong "123" ⟨8, "24", "06", none⟩ :=
    ⟨by decide, by decide, "\n", by decide +kernel, by decide +kernel⟩
  have stands : Occurrence.StandsBetween shortAndLong "24.06.1 " ".123\n"
      ⟨8, "24", "06", none⟩ :=
    ⟨⟨⟨by decide, by decide⟩, ⟨by decide, by decide⟩, nofun⟩, by decide +kernel, by decide,
      by decide +kernel, by decide +kernel⟩
  have compared := (find_comparesPatch shortAndLong ⟨24, 6, 1⟩).1 _
    (by rw [finds]; exact List.mem_cons_self) "1" short
  have found := (find_comparesPatch shortAndLong ⟨24, 6, 1⟩).2 _ _ _ "123" stands
    (by decide +kernel) rfl long (by decide)
  exact ⟨finds, short, compared.2, stands, long, found.mpr ⟨by decide, by decide, nofun⟩⟩

/-- The first two groups are found in front of a third group of three digits, which no patch release
of the version can have. -/
theorem find_overlongPatch :
    find "24.06.123" ⟨24, 6, 0⟩ = [⟨0, "24", "06", none⟩] ∧
      Occurrence.patchSpan? ⟨0, "24", "06", none⟩ = none ∧
      Text.slice "24.06.123" 5 9 = ".123" := by
  decide +kernel

end SourceLint.HardcodedVersion
