/-
This file says what the regions of a text are. They tile the text, so each position is in exactly
one proper region, and the check is enabled there if the last next-line directive for the line of
the position says so, or else the last range directive up to the position; without either it is
enabled. Regions begin where a range directive stands outside the governed lines and at the two ends
of each governed line, and only an empty governed line has a region of width zero.
-/
import SourceLint.Proofs.Region.Collected

namespace SourceLint

/-- Whether some directives enable a check at a position: the last next-line directive for the line
of the position decides, or else the last range directive up to the position. -/
def Directive.enabledAt (lines : Lines) (directives : List Directive) (position : Nat) : Bool :=
  let overriding := directives.filter fun directive =>
    (directive.governed? lines).any fun line => line.span.Covers position
  let preceding := directives.filter fun directive =>
    !directive.nextLine && directive.index ≤ position
  match overriding.getLast?, preceding.getLast? with
  | some directive, _ => directive.enables
  | none, some directive => directive.enables
  | none, none => true

namespace Region

/-! ### The regions of a text -/

variable (content check : Text)

/-- The regions of a text are those that `boundaries` gives. -/
theorem boundaries_eq_ofLines :
    boundaries (Lines.ofText content) check = .ok (ofLines (Lines.ofText content) check) := by
  rw [ofLines, boundaries_ofText]

/-- A text that is not empty has its ranges, with the governed lines woven in, for regions. -/
theorem ofLines_eq_weave (nonempty : content ≠ []) :
    ofLines (Lines.ofText content) check =
      weave (ranges content.length 0 true (Directive.find content check)) content.length 0
        (lastOfEach (targets (Lines.ofText content) (Directive.find content check))) := by
  rw [ofLines, boundaries_ofText, if_neg nonempty]

/-- The regions of a text follow one another without gaps from its start to its end. -/
theorem ofLines_tile : Tile 0 content.length (ofLines (Lines.ofText content) check) := by
  by_cases empty : content = []
  · subst empty
    exact ⟨rfl, Nat.le_refl _, rfl⟩
  · rw [ofLines_eq_weave content check empty]
    exact weave_tile (ranges_find_tile content check) 0 _ (row_lastOfEach_targets content check)

/-- The directives that govern a position are those that govern the line it lies in. -/
theorem filter_governed?_covers (directives : List Directive) (line : Line)
    (member : line ∈ (Lines.ofText content).all) (position : Nat)
    (covers : line.span.Covers position) :
    (directives.filter fun directive =>
        (directive.governed? (Lines.ofText content)).any fun line => line.span.Covers position) =
      directives.filter fun directive =>
        directive.governed? (Lines.ofText content) = some line := by
  refine List.filter_congr fun directive _ => ?_
  cases governs : directive.governed? (Lines.ofText content) with
  | none => rfl
  | some other =>
    have otherMember := mem_all_of_governed? _ directive other governs
    rw [Option.any_some, decide_eq_decide, Option.some_inj]
    constructor
    · intro otherCovers
      exact Lines.eq_of_touching content other line otherMember member
        (Nat.le_trans otherCovers.1 (Nat.le_of_lt covers.2))
        (Nat.le_trans covers.1 (Nat.le_of_lt otherCovers.2))
    · rintro rfl
      exact covers

/-- In a governed line the check is enabled as the last directive for the line says. -/
theorem exists_mem_ofLines_of_governed (line : Line)
    (isGoverned : line ∈ (Lines.ofText content).governed (Directive.find content check))
    (position : Nat) (covers : line.span.Covers position) :
    ∃ part ∈ ofLines (Lines.ofText content) check, part.span.Covers position ∧
      part.enabled =
        Directive.enabledAt (Lines.ofText content) (Directive.find content check) position := by
  have member := (List.mem_filter.mp isGoverned).1
  obtain ⟨directive, isLast⟩ := exists_lastGoverning? _ _ line isGoverned
  have nonempty : content ≠ [] := List.ne_nil_of_length_pos <|
    Nat.lt_of_lt_of_le (Nat.lt_of_le_of_lt (Nat.zero_le _) covers.2)
      (Lines.stop_le_length content line member)
  have inTargets : (⟨line.span, directive.enables⟩ : Region) ∈
      lastOfEach (targets (Lines.ofText content) (Directive.find content check)) := by
    rw [lastOfEach_targets]
    exact List.mem_filterMap.mpr ⟨line, member, by rw [isLast]; rfl⟩
  refine ⟨⟨line.span, directive.enables⟩, ?_, covers, ?_⟩
  · rw [ofLines_eq_weave content check nonempty]
    exact mem_weave 0 _ _ inTargets
  · rw [Directive.lastGoverning?] at isLast
    simp only [Directive.enabledAt, filter_governed?_covers content _ line member position covers,
      isLast]

/-- Off the governed lines the check is enabled as the last range directive says. -/
theorem exists_mem_ofLines_of_ungoverned (position : Nat) (inside : position < content.length)
    (free : ∀ line ∈ (Lines.ofText content).governed (Directive.find content check),
      ¬line.span.Covers position) :
    ∃ part ∈ ofLines (Lines.ofText content) check, part.span.Covers position ∧
      part.enabled =
        Directive.enabledAt (Lines.ofText content) (Directive.find content check) position := by
  have nonempty : content ≠ [] :=
    List.ne_nil_of_length_pos (Nat.lt_of_le_of_lt (Nat.zero_le _) inside)
  obtain ⟨region, member, covers, polarity⟩ := exists_mem_ranges content.length 0 true _
    (Directive.find_pairwise content check) position (Nat.zero_le _) inside
  have ungoverned := (forall_mem_lastOfEach_targets content check
    fun span => ¬span.Covers position).mpr free
  have noneOverriding : (Directive.find content check).filter (fun directive =>
      (directive.governed? (Lines.ofText content)).any fun line =>
        line.span.Covers position) = [] := by
    rw [List.filter_eq_nil_iff]
    intro directive inDirectives overriding
    obtain ⟨line, governs, lineCovers⟩ := (Option.any_eq_true _ _).mp overriding
    refine free line (List.mem_filter.mpr ⟨mem_all_of_governed? _ directive line governs, ?_⟩)
      (of_decide_eq_true lineCovers)
    exact List.any_eq_true.mpr ⟨directive, inDirectives, decide_eq_true governs⟩
  obtain ⟨part, inWoven, partCovers, samePolarity⟩ := exists_mem_weave 0 _ region member position
    covers (Nat.zero_le _) inside ungoverned
  refine ⟨part, ?_, partCovers, ?_⟩
  · rw [ofLines_eq_weave content check nonempty]
    exact inWoven
  · rw [samePolarity, polarity, Directive.enabledAt, noneOverriding]
    cases ((Directive.find content check).filter fun directive =>
      !directive.nextLine && directive.index ≤ position).getLast? <;> rfl

/-- The look-up of the regions of a text does not fail, exactly one of them covers a given position
of the text, and that region is enabled as the directives say: the last next-line directive for the
line of the position decides, or else the last range directive up to the position. -/
theorem filter_covers_boundaries (position : Nat) (inside : position < content.length) :
    ∃ regions region,
      boundaries (Lines.ofText content) check = .ok regions ∧
      regions.filter (fun region => region.span.Covers position) = [region] ∧
      region.enabled =
        Directive.enabledAt (Lines.ofText content) (Directive.find content check) position := by
  obtain ⟨region, alone⟩ :=
    (ofLines_tile content check).filter_covers position (Nat.zero_le _) inside
  have holds : ∃ part ∈ ofLines (Lines.ofText content) check, part.span.Covers position ∧
      part.enabled =
        Directive.enabledAt (Lines.ofText content) (Directive.find content check) position := by
    by_cases governed : ∃ line ∈ (Lines.ofText content).governed (Directive.find content check),
        line.span.Covers position
    · obtain ⟨line, isGoverned, covers⟩ := governed
      exact exists_mem_ofLines_of_governed content check line isGoverned position covers
    · exact exists_mem_ofLines_of_ungoverned content check position inside
        fun line isGoverned covers => governed ⟨line, isGoverned, covers⟩
  -- Any region that covers the position is the one.
  obtain ⟨part, member, covers, polarity⟩ := holds
  have among : part ∈ (ofLines (Lines.ofText content) check).filter
      (fun region => region.span.Covers position) :=
    List.mem_filter.mpr ⟨member, decide_eq_true covers⟩
  rw [alone, List.mem_singleton] at among
  rw [among] at polarity
  exact ⟨_, region, boundaries_eq_ofLines content check, alone, polarity⟩

/-- Two directives govern the second line of this text, in which a range directive stands. -/
def governedTwice : Text :=
  "rapids-pre-commit-hooks: enable-next-line rapids-pre-commit-hooks: disable-next-line\n" ++
    "rapids-pre-commit-hooks: enable x"

theorem filter_covers_boundaries_governed :
    117 < governedTwice.length ∧
      ∃ regions region,
        boundaries (Lines.ofText governedTwice) "check" = .ok regions ∧
        regions.filter (fun region => region.span.Covers 117) = [region] ∧
        region.enabled = false := by
  have inside : 117 < governedTwice.length := by decide +kernel
  have disabled : Directive.enabledAt (Lines.ofText governedTwice)
      (Directive.find governedTwice "check") 117 = false := by decide +kernel
  obtain ⟨regions, region, found, alone, polarity⟩ :=
    filter_covers_boundaries governedTwice "check" 117 inside
  exact ⟨inside, regions, region, found, alone, polarity.trans disabled⟩

/-- Where the regions of a text begin. -/
theorem mem_starts_ofLines (position : Nat) :
    position ∈ (ofLines (Lines.ofText content) check).map (·.span.start) ↔
      position = 0 ∨
        (∃ directive ∈ Directive.find content check,
          directive.nextLine = false ∧ directive.index = position ∧
            ∀ line ∈ (Lines.ofText content).governed (Directive.find content check),
              ¬line.span.Covers position) ∨
        (∃ line ∈ (Lines.ofText content).governed (Directive.find content check),
          line.start = position) ∨
        ∃ line ∈ (Lines.ofText content).governed (Directive.find content check),
          line.stop = position ∧ position < content.length := by
  by_cases nonempty : content = []
  · subst nonempty
    have noDirective : Directive.find [] check = [] := rfl
    have noneGoverned : (Lines.ofText []).governed [] = [] := rfl
    have regions : ofLines (Lines.ofText []) check = [⟨⟨0, 0⟩, true⟩] := rfl
    rw [noDirective, noneGoverned, regions]
    simp
  have positive : 0 < content.length := List.length_pos_iff.mpr nonempty
  rw [ofLines_eq_weave content check nonempty,
    mem_starts_weave (ranges_find_tile content check) 0 _ (row_lastOfEach_targets content check),
    mem_starts_ranges,
    forall_mem_lastOfEach_targets content check fun span => ¬span.Covers position,
    exists_mem_lastOfEach_targets content check fun span => span.start = position,
    exists_mem_lastOfEach_targets content check
      fun span => span.stop = position ∧ position < content.length]
  constructor
  · rintro (⟨isFirst, _⟩ | ⟨_, _, isFirst | ⟨directive, member, ranged, here⟩, free⟩ | ends)
    · exact Or.inl isFirst
    · exact Or.inl isFirst
    · exact Or.inr (Or.inl ⟨directive, member, ranged, here, free⟩)
    · exact Or.inr (Or.inr ends)
  · rintro (isFirst | ⟨directive, member, ranged, here, free⟩ | ends)
    · exact Or.inl ⟨isFirst, positive⟩
    · have inside := Directive.index_lt_of_mem_find content check directive member
      rw [here] at inside
      rcases Nat.eq_zero_or_pos position with isFirst | later
      · exact Or.inl ⟨isFirst, positive⟩
      · exact Or.inr (Or.inl ⟨later, inside, Or.inr ⟨directive, member, ranged, here⟩, free⟩)
    · exact Or.inr (Or.inr ends)

/-- The spans of width zero among the regions: that of the empty text, and those of the empty
governed lines. -/
theorem filter_isPoint_ofLines :
    ((ofLines (Lines.ofText content) check).map Region.span).filter Span.isPoint =
      if content = [] then [⟨0, 0⟩]
      else (((Lines.ofText content).governed (Directive.find content check)).map Line.span).filter
        Span.isPoint := by
  split
  · subst content
    rfl
  · rename_i nonempty
    rw [ofLines_eq_weave content check nonempty, ← map_span_lastOfEach_targets, List.filter_map,
      List.filter_map]
    exact congrArg _ (filter_isPoint_weave 0 _)

/-- Behind a governed line that does not reach the end a proper region begins. -/
theorem exists_mem_ofLines_start_eq (line : Line)
    (isGoverned : line ∈ (Lines.ofText content).governed (Directive.find content check))
    (inside : line.stop < content.length) :
    ∃ region ∈ ofLines (Lines.ofText content) check,
      region.span.start = line.stop ∧ region.span.start < region.span.stop := by
  obtain ⟨region, inTargets, same⟩ := (exists_mem_lastOfEach_targets content check
    fun span => span = line.span).mpr ⟨line, isGoverned, rfl⟩
  have nonempty : content ≠ [] :=
    List.ne_nil_of_length_pos (Nat.lt_of_le_of_lt (Nat.zero_le _) inside)
  have stopsThere : region.span.stop = line.stop := congrArg Span.stop same
  rw [ofLines_eq_weave content check nonempty, ← stopsThere]
  exact exists_start_eq_stop (ranges_find_tile content check) 0 _
    (row_lastOfEach_targets content check) region inTargets (by rw [stopsThere]; exact inside)

/-- How regions lie among the lines and the directives of a text. -/
structure Layout (lines : Lines) (directives : List Directive) (regions : List Region) : Prop where
  /-- The look-up of the line of a directive does not fail. -/
  found : ∀ directive ∈ directives, ∃ number, lines.lineAt directive.index = .ok number
  nonempty : regions ≠ []
  tile : Tile 0 lines.content.length regions
  /-- The regions of width zero are the one of the empty text and one for each empty governed
  line. -/
  points : (regions.map Region.span).filter Span.isPoint =
    if lines.content = [] then [⟨0, 0⟩]
    else ((lines.governed directives).map Line.span).filter Span.isPoint
  /-- Regions begin at zero, at each range directive outside the governed lines, at each governed
  line, and behind each governed line that is not empty and does not reach the end. -/
  starts : ∀ position, position ∈ regions.map (·.span.start) ↔
    position = 0 ∨
      (∃ directive ∈ directives, directive.nextLine = false ∧ directive.index = position ∧
        ∀ line ∈ lines.governed directives, ¬line.span.Covers position) ∨
      (∃ line ∈ lines.governed directives, line.start = position) ∨
      ∃ line ∈ lines.governed directives, line.start < line.stop ∧
        line.stop ≠ lines.content.length ∧ line.stop = position
  /-- Behind an empty governed line that does not reach the end a proper region begins. -/
  restarts : ∀ line ∈ lines.governed directives, line.start = line.stop →
    line.stop < lines.content.length →
      ∃ region ∈ regions, region.span.start = line.stop ∧ region.span.start < region.span.stop

/-- The look-up of the regions of a text does not fail, and they lie among its lines and its
directives for the check as they should. -/
theorem layout_boundaries :
    ∃ regions, boundaries (Lines.ofText content) check = .ok regions ∧
      Layout (Lines.ofText content) (Directive.find content check) regions := by
  refine ⟨_, boundaries_eq_ofLines content check, fun directive member => ?_, ?_,
    ofLines_tile content check, filter_isPoint_ofLines content check, fun position => ?_,
    fun line isGoverned _ inside => exists_mem_ofLines_start_eq content check line isGoverned inside⟩
  · obtain ⟨number, _, _, _, looked⟩ :=
      Directive.exists_lineAt_eq_ok content check directive member
    exact ⟨number, looked⟩
  · intro none
    have first := (mem_starts_ofLines content check 0).mpr (Or.inl rfl)
    rw [none] at first
    exact absurd first List.not_mem_nil
  · rw [mem_starts_ofLines content check position, Lines.content_ofText]
    refine or_congr_right (or_congr_right ?_)
    constructor
    · rintro (begins | ⟨line, isGoverned, here, inside⟩)
      · exact Or.inl begins
      -- An empty line stops where it begins.
      · rcases Nat.eq_or_lt_of_le (Nat.le_add_right line.start line.text.length) with empty | proper
        · exact Or.inl ⟨line, isGoverned, empty.trans here⟩
        · exact Or.inr ⟨line, isGoverned, proper, by omega, here⟩
    · rintro (begins | ⟨line, isGoverned, _, notLast, here⟩)
      · exact Or.inl begins
      · have bound := Lines.stop_le_length content line (List.mem_filter.mp isGoverned).1
        exact Or.inr ⟨line, isGoverned, here, by omega⟩

end Region

end SourceLint
