/-
This file proves what cutting and weaving do to a tiling, a list of regions that follow one another
without gaps. A window of a tiling tiles the window. Weaving governed lines into a tiling gives a
tiling again as long as no two governed lines touch: then every window between them is a proper
stretch, and only a governed line can have width zero.

The starts of the woven regions are the starts of the ranges that no governed line covers, and the
two ends of each governed line.
-/
import Mathlib.Data.List.Basic
import SourceLint.Region
import SourceLint.Proofs.Span.Order

namespace SourceLint.Region

/-! ### Tilings -/

/-- Regions follow one another without gaps from `start` to `stop`; some may have width zero. -/
def Tile : Nat → Nat → List Region → Prop
  | start, stop, [] => start = stop
  | start, stop, region :: rest =>
    region.span.start = start ∧ start ≤ region.span.stop ∧ Tile region.span.stop stop rest

theorem Tile.le {start stop : Nat} {regions : List Region} (tile : Tile start stop regions) :
    start ≤ stop := by
  induction regions generalizing start with
  | nil => exact Nat.le_of_eq tile
  | cons region rest inductionHypothesis =>
    obtain ⟨_, forward, restTile⟩ := tile
    exact Nat.le_trans forward (inductionHypothesis restTile)

theorem Tile.append {start middle stop : Nat} {first second : List Region}
    (left : Tile start middle first) (right : Tile middle stop second) :
    Tile start stop (first ++ second) := by
  induction first generalizing start with
  | nil =>
    have same : start = middle := left
    rw [same]
    exact right
  | cons region rest inductionHypothesis =>
    obtain ⟨begins, forward, restTile⟩ := left
    exact ⟨begins, forward, inductionHypothesis restTile⟩

/-- Every region of a tiling lies within its ends. -/
theorem Tile.bounds {start stop : Nat} {regions : List Region} (tile : Tile start stop regions)
    {region : Region} (member : region ∈ regions) :
    start ≤ region.span.start ∧ region.span.start ≤ region.span.stop ∧
      region.span.stop ≤ stop := by
  induction regions generalizing start with
  | nil => exact absurd member List.not_mem_nil
  | cons first rest inductionHypothesis =>
    obtain ⟨begins, forward, restTile⟩ := tile
    rcases List.mem_cons.mp member with rfl | later
    · exact ⟨Nat.le_of_eq begins.symm, by rw [begins]; exact forward, restTile.le⟩
    · obtain ⟨after, proper, before⟩ := inductionHypothesis restTile later
      exact ⟨Nat.le_trans forward after, proper, before⟩

theorem Tile.pairwise {start stop : Nat} {regions : List Region} (tile : Tile start stop regions) :
    regions.Pairwise fun earlier later => earlier.span.stop ≤ later.span.start := by
  induction regions generalizing start with
  | nil => exact List.Pairwise.nil
  | cons region rest inductionHypothesis =>
    obtain ⟨_, _, restTile⟩ := tile
    exact List.pairwise_cons.mpr
      ⟨fun later member => (restTile.bounds member).1, inductionHypothesis restTile⟩

/-- Where a region of a tiling stops the tiling ends, or another region begins. -/
theorem Tile.stop_eq_or_exists_start {start stop : Nat} {regions : List Region}
    (tile : Tile start stop regions) {region : Region} (member : region ∈ regions) :
    region.span.stop = stop ∨ ∃ next ∈ regions, next.span.start = region.span.stop := by
  induction regions generalizing start with
  | nil => exact absurd member List.not_mem_nil
  | cons first rest inductionHypothesis =>
    obtain ⟨_, _, restTile⟩ := tile
    rcases List.mem_cons.mp member with rfl | later
    · cases rest with
      | nil => exact Or.inl restTile
      | cons next later =>
        exact Or.inr ⟨next, List.mem_cons_of_mem _ List.mem_cons_self, restTile.1⟩
    · rcases inductionHypothesis restTile later with last | ⟨next, inRest, begins⟩
      · exact Or.inl last
      · exact Or.inr ⟨next, List.mem_cons_of_mem _ inRest, begins⟩

/-- Exactly one region of a tiling covers a position between its ends. -/
theorem Tile.filter_covers {start stop : Nat} {regions : List Region}
    (tile : Tile start stop regions) (position : Nat) (after : start ≤ position)
    (before : position < stop) :
    ∃ region, regions.filter (fun region => region.span.Covers position) = [region] := by
  induction regions generalizing start with
  | nil =>
    have same : start = stop := tile
    omega
  | cons region rest inductionHypothesis =>
    obtain ⟨begins, forward, restTile⟩ := tile
    by_cases inFirst : position < region.span.stop
    · have covers : region.span.Covers position := ⟨by rw [begins]; exact after, inFirst⟩
      have noLater : rest.filter (fun region => region.span.Covers position) = [] := by
        rw [List.filter_eq_nil_iff]
        intro later member inLater
        have apart := (restTile.bounds member).1
        have reached := (of_decide_eq_true inLater).1
        omega
      refine ⟨region, ?_⟩
      rw [List.filter_cons_of_pos (by simpa using covers), noLater]
    · obtain ⟨later, alone⟩ := inductionHypothesis restTile (Nat.le_of_not_lt inFirst)
      have outside : ¬region.span.Covers position := fun covers => inFirst covers.2
      refine ⟨later, ?_⟩
      rw [List.filter_cons_of_neg (by simpa using outside), alone]

/-- A position between the ends of a tiling is covered. -/
theorem Tile.exists_covers {start stop : Nat} {regions : List Region}
    (tile : Tile start stop regions) (position : Nat) (after : start ≤ position)
    (before : position < stop) : ∃ region ∈ regions, region.span.Covers position := by
  obtain ⟨region, alone⟩ := tile.filter_covers position after before
  have member : region ∈ regions.filter (fun region => region.span.Covers position) := by
    rw [alone]
    exact List.mem_singleton_self region
  obtain ⟨inRegions, covers⟩ := List.mem_filter.mp member
  exact ⟨region, inRegions, of_decide_eq_true covers⟩

/-- The region that covers the start of another one begins there too. -/
theorem Tile.start_eq_of_covers {start stop : Nat} {regions : List Region}
    (tile : Tile start stop regions) {region cover : Region} (member : region ∈ regions)
    (coverMember : cover ∈ regions) (covers : cover.span.Covers region.span.start) :
    cover.span.start = region.span.start := by
  refine List.Pairwise.forall_of_forall_of_flip
    (R := fun region cover =>
      cover.span.Covers region.span.start → cover.span.start = region.span.start)
    (fun _ _ _ => rfl) ?_ ?_ member coverMember covers
  · refine tile.pairwise.imp_of_mem fun {earlier later} inEarlier _ apart covers => ?_
    have proper := (tile.bounds inEarlier).2.1
    have reached := covers.1
    omega
  · refine tile.pairwise.imp fun {earlier later} apart covers => ?_
    exact absurd covers.2 (Nat.not_lt_of_le apart)

/-! ### Windows -/

/-- The parts of regions that lie between two positions, without the empty ones. -/
def window (regions : List Region) (start stop : Nat) : List Region :=
  regions.filterMap fun region =>
    let left := max region.span.start start
    let right := min region.span.stop stop
    if left < right then some ⟨⟨left, right⟩, region.enabled⟩ else none

/-- A window holds the proper parts that its two ends cut out of the regions. -/
theorem mem_window (regions : List Region) (start stop : Nat) (part : Region) :
    part ∈ window regions start stop ↔
      ∃ region ∈ regions, part.span.start = max region.span.start start ∧
        part.span.stop = min region.span.stop stop ∧ part.enabled = region.enabled ∧
        part.span.start < part.span.stop := by
  rw [window, List.mem_filterMap]
  refine exists_congr fun region => and_congr_right fun _ => ?_
  rw [Option.ite_none_right_eq_some]
  constructor
  · rintro ⟨proper, same⟩
    cases same
    exact ⟨rfl, rfl, rfl, proper⟩
  · obtain ⟨⟨left, right⟩, enabled⟩ := part
    rintro ⟨rfl, rfl, rfl, proper⟩
    exact ⟨proper, rfl⟩

theorem start_lt_stop_of_mem_window (regions : List Region) (start stop : Nat) (part : Region)
    (member : part ∈ window regions start stop) : part.span.start < part.span.stop := by
  obtain ⟨_, _, _, _, _, proper⟩ := (mem_window regions start stop part).mp member
  exact proper

/-- A window that ends before the regions begin is empty. -/
theorem window_eq_nil (regions : List Region) (start stop : Nat)
    (apart : ∀ region ∈ regions, stop ≤ region.span.start) : window regions start stop = [] := by
  rw [List.eq_nil_iff_forall_not_mem]
  intro part member
  obtain ⟨region, inRegions, left, right, _, proper⟩ :=
    (mem_window regions start stop part).mp member
  have beyond := apart region inRegions
  omega

theorem window_append (first second : List Region) (start stop : Nat) :
    window (first ++ second) start stop = window first start stop ++ window second start stop :=
  List.filterMap_append

theorem window_cons (region : Region) (rest : List Region) (start stop : Nat) :
    window (region :: rest) start stop =
      (if max region.span.start start < min region.span.stop stop then
        [⟨⟨max region.span.start start, min region.span.stop stop⟩, region.enabled⟩]
      else []) ++ window rest start stop := by
  rw [window, window, List.filterMap_cons]
  by_cases proper : max region.span.start start < min region.span.stop stop
  · simp only [if_pos proper, List.singleton_append]
  · simp only [if_neg proper, List.nil_append]

/-- A window that stops where one region of a tiling goes on ends with a part of that region. -/
theorem window_eq_append {first last : Nat} {regions : List Region} (tile : Tile first last regions)
    (region : Region) (member : region ∈ regions) (start stop : Nat)
    (reached : max region.span.start start ≤ stop) (inside : stop ≤ region.span.stop) :
    window regions start stop = window regions start region.span.start ++
      if max region.span.start start < stop then
        [⟨⟨max region.span.start start, stop⟩, region.enabled⟩]
      else [] := by
  have proper := (tile.bounds member).2.1
  obtain ⟨before, behind, rfl⟩ := List.append_of_mem member
  obtain ⟨_, behindApart, beforeApart⟩ := List.pairwise_append.mp tile.pairwise
  have same : window before start stop = window before start region.span.start :=
    List.filterMap_congr fun earlier isEarlier => by
      have apart := beforeApart earlier isEarlier region List.mem_cons_self
      have bounded : min earlier.span.stop stop = min earlier.span.stop region.span.start := by omega
      rw [bounded]
  have cut (bound : Nat) (within : bound ≤ region.span.stop) :
      window (region :: behind) start bound =
        if max region.span.start start < bound then
          [⟨⟨max region.span.start start, bound⟩, region.enabled⟩]
        else [] := by
    rw [window_cons, window_eq_nil behind start bound fun later isLater =>
      Nat.le_trans within ((List.pairwise_cons.mp behindApart).1 later isLater),
      Nat.min_eq_right within, List.append_nil]
  have none : window (region :: behind) start region.span.start = [] := by
    rw [cut _ proper, if_neg (by omega)]
  rw [window_append, window_append, same, cut stop inside, none, List.append_nil]

/-- A window of a tiling tiles the window. -/
theorem window_tile {first last : Nat} {regions : List Region} (tile : Tile first last regions)
    (start stop : Nat) (forward : max first start ≤ stop) (inside : stop ≤ last) :
    Tile (max first start) stop (window regions start stop) := by
  induction regions generalizing first with
  | nil =>
    have same : first = last := tile
    show max first start = stop
    omega
  | cons region rest inductionHypothesis =>
    obtain ⟨begins, _, restTile⟩ := tile
    rw [window_cons, begins]
    by_cases reached : stop ≤ region.span.stop
    · have noLater : window rest start stop = [] :=
        window_eq_nil rest start stop fun later member =>
          Nat.le_trans reached (restTile.bounds member).1
      rw [noLater, Nat.min_eq_right reached, List.append_nil]
      split
      · exact ⟨rfl, forward, rfl⟩
      · show max first start = stop
        omega
    · rw [Nat.min_eq_left (Nat.le_of_not_le reached)]
      split
      · have later := inductionHypothesis restTile (by omega)
        rw [Nat.max_eq_left (by omega)] at later
        refine ⟨rfl, ?_, later⟩
        show max first start ≤ region.span.stop
        omega
      · have same : max first start = max region.span.stop start := by omega
        rw [same]
        exact inductionHypothesis restTile (by omega)

/-- The parts in a window begin where it begins, and where a region begins inside it. -/
theorem mem_starts_window {first last : Nat} {regions : List Region}
    (tile : Tile first last regions) (start stop : Nat) (after : first ≤ start)
    (inside : stop ≤ last) (position : Nat) :
    position ∈ (window regions start stop).map (·.span.start) ↔
      (position = start ∧ start < stop) ∨
        (start < position ∧ position < stop ∧ position ∈ regions.map (·.span.start)) := by
  simp only [List.mem_map, mem_window]
  constructor
  · rintro ⟨part, ⟨region, member, left, right, _, proper⟩, rfl⟩
    by_cases cut : region.span.start ≤ start
    · exact Or.inl (by omega)
    · exact Or.inr ⟨by omega, by omega, region, member, by omega⟩
  -- In both cases the part is the one cut out of the region that covers the position.
  · intro cases
    have within : start ≤ position ∧ position < stop := by
      rcases cases with ⟨rfl, proper⟩ | ⟨later, before, _⟩
      · exact ⟨Nat.le_refl _, proper⟩
      · exact ⟨Nat.le_of_lt later, before⟩
    obtain ⟨cover, member, covers⟩ := tile.exists_covers position
      (Nat.le_trans after within.1) (Nat.lt_of_lt_of_le within.2 inside)
    have begins : max cover.span.start start = position := by
      rcases cases with ⟨rfl, _⟩ | ⟨later, _, region, inRegions, rfl⟩
      · exact Nat.max_eq_right covers.1
      · rw [tile.start_eq_of_covers inRegions member covers]
        exact Nat.max_eq_left (Nat.le_of_lt later)
    have ends : position < min cover.span.stop stop := by
      have last := covers.2
      omega
    exact ⟨⟨⟨position, min cover.span.stop stop⟩, cover.enabled⟩,
      ⟨cover, member, begins.symm, rfl, rfl, ends⟩, rfl⟩

/-! ### Weaving governed lines in -/

/-- The regions from a position on, with governed lines put in their places. -/
def weave (regions : List Region) (length : Nat) : Nat → List Region → List Region
  | start, [] => window regions start length
  | start, line :: rest =>
    window regions start line.span.start ++ line :: weave regions length line.span.stop rest

variable {length : Nat} {regions : List Region}

/-- Woven regions tile the text. -/
theorem weave_tile (tile : Tile 0 length regions) (start : Nat) (lines : List Region)
    (row : Span.Row 1 length start (lines.map Region.span)) :
    Tile start length (weave regions length start lines) := by
  induction lines generalizing start with
  | nil =>
    have last := window_tile tile start length (by rw [Nat.zero_max]; exact row) (Nat.le_refl _)
    rwa [Nat.zero_max] at last
  | cons line rest inductionHypothesis =>
    obtain ⟨before, proper, restRow⟩ := row
    have inside : line.span.start ≤ length := Nat.le_trans proper restRow.le
    have first := window_tile tile start line.span.start
      (by rw [Nat.zero_max]; exact Nat.le_of_lt before) inside
    rw [Nat.zero_max] at first
    exact first.append ⟨rfl, proper, inductionHypothesis _ restRow⟩

theorem mem_weave (start : Nat) (lines : List Region) (line : Region) (member : line ∈ lines) :
    line ∈ weave regions length start lines := by
  induction lines generalizing start with
  | nil => exact absurd member List.not_mem_nil
  | cons first rest inductionHypothesis =>
    rw [weave, List.mem_append, List.mem_cons]
    rcases List.mem_cons.mp member with rfl | later
    · exact Or.inr (Or.inl rfl)
    · exact Or.inr (Or.inr (inductionHypothesis _ later))

/-- Off the governed lines the woven regions are as the ranges are. -/
theorem exists_mem_weave (start : Nat) (lines : List Region) (region : Region)
    (member : region ∈ regions) (position : Nat) (covers : region.span.Covers position)
    (after : start ≤ position) (before : position < length)
    (ungoverned : ∀ line ∈ lines, ¬line.span.Covers position) :
    ∃ part ∈ weave regions length start lines,
      part.span.Covers position ∧ part.enabled = region.enabled := by
  -- Every part of the window that holds the position is cut out of one region.
  have windowed (start stop : Nat) (after : start ≤ position) (before : position < stop) :
      ∃ part ∈ window regions start stop,
        part.span.Covers position ∧ part.enabled = region.enabled := by
    have proper := covers.1
    have bound := covers.2
    refine ⟨⟨⟨max region.span.start start, min region.span.stop stop⟩, region.enabled⟩,
      (mem_window _ _ _ _).mpr ⟨region, member, rfl, rfl, rfl, ?_⟩, ⟨?_, ?_⟩, rfl⟩
    all_goals dsimp only
    all_goals omega
  induction lines generalizing start with
  | nil => exact windowed start length after before
  | cons line rest inductionHypothesis =>
    rw [weave]
    by_cases early : position < line.span.start
    · obtain ⟨part, inWindow, holds⟩ := windowed start line.span.start after early
      exact ⟨part, List.mem_append_left _ inWindow, holds⟩
    · have past : line.span.stop ≤ position := Nat.le_of_not_lt fun inLine =>
        ungoverned line List.mem_cons_self ⟨Nat.le_of_not_lt early, inLine⟩
      obtain ⟨part, inRest, holds⟩ := inductionHypothesis line.span.stop past
        fun other inRest => ungoverned other (List.mem_cons_of_mem _ inRest)
      exact ⟨part, List.mem_append_right _ (List.mem_cons_of_mem _ inRest), holds⟩

/-- Only governed lines have width zero. -/
theorem filter_isPoint_weave (start : Nat) (lines : List Region) :
    (weave regions length start lines).filter (fun region => region.span.isPoint) =
      lines.filter fun region => region.span.isPoint := by
  have proper (start stop : Nat) :
      (window regions start stop).filter (fun region => region.span.isPoint) = [] := by
    rw [List.filter_eq_nil_iff]
    intro part member isPoint
    have less := start_lt_stop_of_mem_window regions start stop part member
    have same := part.span.isPoint_iff.mp isPoint
    omega
  induction lines generalizing start with
  | nil => exact proper start length
  | cons line rest inductionHypothesis =>
    rw [weave, List.filter_append, proper, List.nil_append, List.filter_cons, List.filter_cons,
      inductionHypothesis]

/-- A position off the governed lines lies before the first of them, or behind it off the rest. -/
theorem forall_not_covers_cons_iff (start : Nat) (line : Region) (rest : List Region)
    (row : Span.Row 1 length start ((line :: rest).map Region.span)) (position : Nat) :
    (∀ other ∈ line :: rest, ¬other.span.Covers position) ↔
      position < line.span.start ∨
        line.span.stop ≤ position ∧ ∀ other ∈ rest, ¬other.span.Covers position := by
  obtain ⟨_, proper, restRow⟩ := row
  rw [List.forall_mem_cons]
  constructor
  · rintro ⟨free, restFree⟩
    rcases Nat.lt_or_ge position line.span.start with early | reached
    · exact Or.inl early
    · exact Or.inr ⟨Nat.le_of_not_lt fun inLine => free ⟨reached, inLine⟩, restFree⟩
  · rintro (early | ⟨past, restFree⟩)
    · refine ⟨fun covers => absurd covers.1 (Nat.not_le_of_lt early), fun other member covers => ?_⟩
      have gap := restRow.start_le (List.mem_map_of_mem (f := Region.span) member)
      have reached := covers.1
      omega
    · exact ⟨fun covers => absurd covers.2 (Nat.not_lt_of_le past), restFree⟩

/-- Where the woven regions begin: at the first position, where a range begins that no governed line
covers, at each governed line, and behind each governed line that does not reach the end. -/
theorem mem_starts_weave (tile : Tile 0 length regions) (start : Nat) (lines : List Region)
    (row : Span.Row 1 length start (lines.map Region.span)) (position : Nat) :
    position ∈ (weave regions length start lines).map (·.span.start) ↔
      (position = start ∧ start < length) ∨
        (start < position ∧ position < length ∧ position ∈ regions.map (·.span.start) ∧
          ∀ line ∈ lines, ¬line.span.Covers position) ∨
        (∃ line ∈ lines, line.span.start = position) ∨
        ∃ line ∈ lines, line.span.stop = position ∧ position < length := by
  induction lines generalizing start with
  | nil =>
    rw [weave, mem_starts_window tile start length (Nat.zero_le _) (Nat.le_refl _)]
    simp
  | cons line rest inductionHypothesis =>
    have free := forall_not_covers_cons_iff start line rest row position
    obtain ⟨before, proper, restRow⟩ := row
    have inside := restRow.le
    rw [weave, List.map_append, List.mem_append, List.map_cons, List.mem_cons,
      mem_starts_window tile start line.span.start (Nat.zero_le _) (Nat.le_trans proper inside),
      inductionHypothesis line.span.stop restRow, free]
    simp only [List.mem_cons, exists_eq_or_imp]
    constructor
    · rintro ((⟨rfl, _⟩ | ⟨after, early, begins⟩) | rfl | ⟨rfl, within⟩ |
        ⟨past, within, begins, restFree⟩ | ⟨other, member, same⟩ | ⟨other, member, same⟩)
      · exact Or.inl ⟨rfl, by omega⟩
      · exact Or.inr (Or.inl ⟨after, by omega, begins, Or.inl early⟩)
      · exact Or.inr (Or.inr (Or.inl (Or.inl rfl)))
      · exact Or.inr (Or.inr (Or.inr (Or.inl ⟨rfl, within⟩)))
      · exact Or.inr (Or.inl
          ⟨by omega, within, begins, Or.inr ⟨Nat.le_of_lt past, restFree⟩⟩)
      · exact Or.inr (Or.inr (Or.inl (Or.inr ⟨other, member, same⟩)))
      · exact Or.inr (Or.inr (Or.inr (Or.inr ⟨other, member, same⟩)))
    · rintro (⟨rfl, _⟩ | ⟨after, within, begins, early | ⟨past, restFree⟩⟩ |
        (same | ⟨other, member, same⟩) | ⟨same, within⟩ | ⟨other, member, same⟩)
      · exact Or.inl (Or.inl ⟨rfl, before⟩)
      · exact Or.inl (Or.inr ⟨after, early, begins⟩)
      -- What begins just where the line stops begins there whether a range does or not.
      · rcases Nat.eq_or_lt_of_le past with same | beyond
        · exact Or.inr (Or.inr (Or.inl ⟨same.symm, by omega⟩))
        · exact Or.inr (Or.inr (Or.inr (Or.inl ⟨beyond, within, begins, restFree⟩)))
      · exact Or.inr (Or.inl same.symm)
      · exact Or.inr (Or.inr (Or.inr (Or.inr (Or.inl ⟨other, member, same⟩))))
      · exact Or.inr (Or.inr (Or.inl ⟨same.symm, by omega⟩))
      · exact Or.inr (Or.inr (Or.inr (Or.inr (Or.inr ⟨other, member, same⟩))))

/-- Behind a governed line that does not reach the end begins a proper region, also when the line
has width zero. -/
theorem exists_start_eq_stop (tile : Tile 0 length regions) (start : Nat) (lines : List Region)
    (row : Span.Row 1 length start (lines.map Region.span)) (line : Region)
    (member : line ∈ lines) (inside : line.span.stop < length) :
    ∃ part ∈ weave regions length start lines,
      part.span.start = line.span.stop ∧ part.span.start < part.span.stop := by
  have woven := weave_tile tile start lines row
  have lineBounds := woven.bounds (mem_weave start lines line member)
  obtain ⟨cover, inWoven, covers⟩ := woven.exists_covers line.span.stop (by omega) inside
  have begins := (mem_starts_weave tile start lines row line.span.stop).mpr
    (Or.inr (Or.inr (Or.inr ⟨line, member, rfl, inside⟩)))
  obtain ⟨next, inNext, nextStart⟩ := List.mem_map.mp begins
  have same : cover.span.start = next.span.start :=
    woven.start_eq_of_covers inNext inWoven (by rw [nextStart]; exact covers)
  refine ⟨cover, inWoven, same.trans nextStart, ?_⟩
  rw [same, nextStart]
  exact covers.2

end SourceLint.Region
