/-
This file proves that the sweep over the ranges and the overrides puts the overrides in their places:
for ranges that tile a text and overrides of which no two touch it makes the regions that weaving
makes, and it never looks for a range beyond the last.

Between two neighbouring cuts nothing begins and nothing ends, so what is known at a cut fits into
two states. Off the overrides the pieces are those up to the last override that is done, followed by
the window of the ranges from there on; within an override the last piece is the part of it so far.
The source of the last piece tells whether the next one is joined to it.
-/
import SourceLint.Proofs.Region.Tiling

namespace SourceLint.Region

variable {ranges overrides : List Region} {length : Nat}

/-! ### The cuts -/

theorem mem_insertCut (position other : Nat) (cuts : List Nat) :
    other ∈ insertCut position cuts ↔ other = position ∨ other ∈ cuts := by
  fun_induction insertCut position cuts with
  | case1 => simp
  | case2 => simp
  | case3 => simp
  | case4 cut later _ _ inductionHypothesis =>
    rw [List.mem_cons, inductionHypothesis, List.mem_cons]
    exact or_left_comm

theorem insertCut_pairwise (position : Nat) (cuts : List Nat) (ascending : cuts.Pairwise (· < ·)) :
    (insertCut position cuts).Pairwise (· < ·) := by
  fun_induction insertCut position cuts with
  | case1 => exact List.pairwise_singleton _ _
  | case2 cut later before =>
    refine List.pairwise_cons.mpr ⟨fun other member => ?_, ascending⟩
    rcases List.mem_cons.mp member with rfl | inLater
    · exact before
    · exact Nat.lt_trans before ((List.pairwise_cons.mp ascending).1 other inLater)
  | case3 => exact ascending
  | case4 cut later notBefore different inductionHypothesis =>
    obtain ⟨least, laterAscending⟩ := List.pairwise_cons.mp ascending
    refine List.pairwise_cons.mpr ⟨fun other member => ?_, inductionHypothesis laterAscending⟩
    rcases (mem_insertCut position other later).mp member with rfl | inLater
    · omega
    · exact least other inLater

/-- The cuts ascend. -/
theorem cuts_pairwise (ranges overrides : List Region) (length : Nat) :
    (cuts ranges overrides length).Pairwise (· < ·) := by
  rw [cuts]
  generalize 0 :: length :: _ = positions
  induction positions with
  | nil => exact List.Pairwise.nil
  | cons position rest inductionHypothesis => exact insertCut_pairwise _ _ inductionHypothesis

/-- A cut is an end of the text, the start of a range, or an end of an override. -/
theorem mem_cuts (ranges overrides : List Region) (length position : Nat) :
    position ∈ cuts ranges overrides length ↔
      position = 0 ∨ position = length ∨ (∃ range ∈ ranges, range.span.start = position) ∨
        ∃ override ∈ overrides, position = override.span.start ∨ position = override.span.stop := by
  have collected (positions : List Nat) :
      position ∈ positions.foldr insertCut [] ↔ position ∈ positions := by
    induction positions with
    | nil => exact Iff.rfl
    | cons other rest inductionHypothesis =>
      rw [List.foldr_cons, mem_insertCut, inductionHypothesis, List.mem_cons]
  rw [cuts, collected]
  simp

/-- The cuts lie within the text. -/
theorem cuts_le (tile : Tile 0 length ranges)
    (row : Span.Row 1 length 0 (overrides.map Region.span)) (cut : Nat)
    (member : cut ∈ cuts ranges overrides length) : cut ≤ length := by
  rcases (mem_cuts _ _ _ _).mp member with
    rfl | rfl | ⟨range, inRanges, rfl⟩ | ⟨line, inOverrides, ends⟩
  · exact Nat.zero_le _
  · exact Nat.le_refl _
  · obtain ⟨_, forward, inside⟩ := tile.bounds inRanges
    exact Nat.le_trans forward inside
  · have bounds := row.stop_le (List.mem_map_of_mem inOverrides)
    omega

/-- The first cut is the start of the text. -/
theorem exists_cuts_eq_cons (ranges overrides : List Region) (length : Nat) :
    ∃ later, cuts ranges overrides length = 0 :: later := by
  have isCut : 0 ∈ cuts ranges overrides length := (mem_cuts _ _ _ _).mpr (Or.inl rfl)
  cases all : cuts ranges overrides length with
  | nil =>
    rw [all] at isCut
    exact absurd isCut List.not_mem_nil
  | cons first later =>
    have ascending := cuts_pairwise ranges overrides length
    rw [all] at isCut ascending
    rcases List.mem_cons.mp isCut with rfl | isLater
    · exact ⟨later, rfl⟩
    · exact absurd ((List.pairwise_cons.mp ascending).1 0 isLater) (Nat.not_lt_zero _)

/-- No cut lies between two positions. -/
def Free (ranges overrides : List Region) (length start stop : Nat) : Prop :=
  ∀ cut ∈ cuts ranges overrides length, cut ≤ start ∨ stop ≤ cut

/-- A range that goes on at one cut goes on up to the next. -/
theorem Free.le_stop {start stop : Nat} (free : Free ranges overrides length start stop)
    (tile : Tile 0 length ranges) (range : Region) (member : range ∈ ranges)
    (beyond : start < range.span.stop) : stop ≤ range.span.stop := by
  have isCut : range.span.stop ∈ cuts ranges overrides length := by
    rw [mem_cuts]
    rcases tile.stop_eq_or_exists_start member with last | ⟨next, inRanges, begins⟩
    · exact Or.inr (Or.inl last)
    · exact Or.inr (Or.inr (Or.inl ⟨next, inRanges, begins⟩))
  exact (free _ isCut).resolve_left (Nat.not_le_of_lt beyond)

/-- So does an override. -/
theorem Free.le_override {start stop : Nat} (free : Free ranges overrides length start stop)
    (line : Region) (member : line ∈ overrides) :
    (start < line.span.start → stop ≤ line.span.start) ∧
      (start < line.span.stop → stop ≤ line.span.stop) := by
  have isCut (position : Nat) (ends : position = line.span.start ∨ position = line.span.stop) :
      position ∈ cuts ranges overrides length :=
    (mem_cuts _ _ _ _).mpr (Or.inr (Or.inr (Or.inr ⟨line, member, ends⟩)))
  exact ⟨fun beyond => (free _ (isCut _ (Or.inl rfl))).resolve_left (Nat.not_le_of_lt beyond),
    fun beyond => (free _ (isCut _ (Or.inr rfl))).resolve_left (Nat.not_le_of_lt beyond)⟩

/-! ### Overrides that are done -/

variable {position : Nat} {sweep : Sweep} {line : Region}

theorem drop_eq_cons (found : overrides[sweep.override]? = some line) :
    overrides.drop sweep.override = line :: overrides.drop (sweep.override + 1) := by
  obtain ⟨bound, rfl⟩ := List.getElem?_eq_some_iff.mp found
  exact List.drop_eq_getElem_cons bound

/-- All later overrides begin beyond the stop of an override. -/
theorem stop_lt_start_of_later (row : Span.Row 1 length 0 (overrides.map Region.span))
    (found : overrides[sweep.override]? = some line) (later : Region)
    (member : later ∈ overrides.drop (sweep.override + 1)) : line.span.stop < later.span.start := by
  have apart := List.pairwise_map.mp row.pairwise
  have left := apart.sublist (List.drop_sublist sweep.override overrides)
  rw [drop_eq_cons found] at left
  exact (List.pairwise_cons.mp left).1 later member

/-- The first override that may still count goes on at a position. -/
def Settled (overrides : List Region) (position : Nat) (sweep : Sweep) : Prop :=
  ∀ line, overrides[sweep.override]? = some line → position < line.span.stop

theorem advance_of_settled (settled : Settled overrides position sweep) :
    sweep.advance overrides position = sweep := by
  rw [Sweep.advance]
  cases found : overrides[sweep.override]? with
  | none =>
    rw [List.drop_eq_nil_of_le (List.getElem?_eq_none_iff.mp found)]
    rfl
  | some line =>
    have beyond := settled line found
    rw [drop_eq_cons found, Sweep.pass, if_neg (by omega), if_neg (by omega)]

/-- Behind an override that stops at a position the next one goes on there. -/
theorem settled_of_stop (row : Span.Row 1 length 0 (overrides.map Region.span))
    (found : overrides[sweep.override]? = some line) (stops : line.span.stop = position)
    (next : Sweep) (passed : next.override = sweep.override + 1) :
    Settled overrides position next := by
  intro later isNext
  rw [passed] at isNext
  have beyond := stop_lt_start_of_later row found later
    (List.mem_of_mem_head? (by rw [List.head?_drop]; exact isNext))
  have forward := (row.stop_le (List.mem_map_of_mem (List.mem_of_getElem? isNext))).1
  omega

/-- A proper override that stops at a position is passed, and no later one with it. -/
theorem advance_of_stop (row : Span.Row 1 length 0 (overrides.map Region.span))
    (found : overrides[sweep.override]? = some line) (proper : line.span.start < line.span.stop)
    (stops : line.span.stop = position) :
    sweep.advance overrides position = { sweep with override := sweep.override + 1 } := by
  have settled := settled_of_stop row found stops { sweep with override := sweep.override + 1 } rfl
  rw [Sweep.advance, drop_eq_cons found, Sweep.pass, if_pos ⟨proper, Nat.le_of_eq stops⟩]
  exact advance_of_settled settled

/-- An empty override at a position is passed with a piece of its own, and no later one with it. -/
theorem advance_of_point (row : Span.Row 1 length 0 (overrides.map Region.span))
    (found : overrides[sweep.override]? = some line) (starts : line.span.start = position)
    (stops : line.span.stop = position) :
    sweep.advance overrides position = { sweep with
      pieces := ⟨line, overrideSource sweep.override⟩ :: sweep.pieces
      override := sweep.override + 1 } := by
  have settled := settled_of_stop row found stops { sweep with
    pieces := ⟨line, overrideSource sweep.override⟩ :: sweep.pieces
    override := sweep.override + 1 } rfl
  rw [Sweep.advance, drop_eq_cons found, Sweep.pass, if_neg (by omega), if_pos ⟨starts, stops⟩]
  exact advance_of_settled settled

/-! ### What is known at a cut -/

/-- Off the overrides the pieces are those up to the last override that is done, followed by the
ranges from there on. The last piece comes from that override if the sweep stands right behind it,
and else from the range that reaches up to the sweep. -/
structure Off (ranges overrides : List Region) (length start position : Nat) (sweep : Sweep) :
    Prop where
  forward : start ≤ position
  ahead : ∀ line ∈ overrides.drop sweep.override, position ≤ line.span.start
  behind : ∀ range ∈ ranges.take sweep.range, range.span.stop ≤ position
  pieces : ∃ done, sweep.pieces.reverse.map Piece.region = done ++ window ranges start position ∧
    weave ranges length 0 overrides =
      done ++ weave ranges length start (overrides.drop sweep.override)
  last : ∀ piece ∈ sweep.pieces.head?,
    (start = position ∧ overrideSource sweep.override < piece.source ∧ piece.source < 0) ∨
      (start < position ∧ ∃ (number : Nat) (range : Region), ranges[number]? = some range ∧
        piece.source = number ∧ range.span.start < position ∧ position ≤ range.span.stop)

/-- Within an override the last piece is the part of it so far. -/
structure Within (ranges overrides : List Region) (length : Nat) (line : Region) (position : Nat)
    (sweep : Sweep) : Prop where
  found : overrides[sweep.override]? = some line
  begun : line.span.start < position
  inside : position ≤ line.span.stop
  behind : ∀ range ∈ ranges.take sweep.range, range.span.stop ≤ position
  pieces : ∃ earlier,
    sweep.pieces = ⟨⟨⟨line.span.start, position⟩, line.enabled⟩, overrideSource sweep.override⟩ ::
      earlier ∧
    weave ranges length 0 overrides = earlier.reverse.map Piece.region ++
      line :: weave ranges length line.span.stop (overrides.drop (sweep.override + 1))

/-- What is known of the sweep at a cut. -/
def Stands (ranges overrides : List Region) (length position : Nat) (sweep : Sweep) : Prop :=
  (∃ start, Off ranges overrides length start position sweep) ∨
    ∃ line, Within ranges overrides length line position sweep

theorem window_self (regions : List Region) (position : Nat) :
    window regions position position = [] := by
  rw [List.eq_nil_iff_forall_not_mem]
  intro part member
  obtain ⟨_, _, left, right, _, proper⟩ := (mem_window regions position position part).mp member
  omega

/-- The sweep starts off the overrides. -/
theorem off_start (ranges overrides : List Region) (length : Nat) :
    Off ranges overrides length 0 0 ⟨[], 0, 0⟩ where
  forward := Nat.le_refl _
  ahead _ _ := Nat.zero_le _
  behind _ member := absurd member List.not_mem_nil
  pieces := ⟨[], by rw [window_self]; rfl, rfl⟩
  last _ isLast := by cases isLast

/-! ### A cut: overrides are passed -/

/-- An override that ends at a cut is done there. -/
theorem Within.off (within : Within ranges overrides length line position sweep)
    (row : Span.Row 1 length 0 (overrides.map Region.span)) (stops : line.span.stop = position) :
    Off ranges overrides length position position
      { sweep with override := sweep.override + 1 } := by
  obtain ⟨earlier, pieces, woven⟩ := within.pieces
  refine ⟨Nat.le_refl _, fun later member => ?_, within.behind,
    ⟨sweep.pieces.reverse.map Piece.region, by rw [window_self, List.append_nil], ?_⟩, ?_⟩
  · have apart := stop_lt_start_of_later row within.found later member
    omega
  · rw [woven, pieces, List.reverse_cons, List.map_append, ← stops, List.append_assoc]
    rfl
  · rintro piece isLast
    rw [pieces] at isLast
    cases isLast
    refine Or.inl ⟨rfl, ?_, ?_⟩
    all_goals simp only [overrideSource]
    all_goals omega

/-- An empty override at a cut gets its own piece there. -/
theorem Off.point {start : Nat} (off : Off ranges overrides length start position sweep)
    (row : Span.Row 1 length 0 (overrides.map Region.span))
    (found : overrides[sweep.override]? = some line) (starts : line.span.start = position)
    (stops : line.span.stop = position) :
    Off ranges overrides length position position { sweep with
      pieces := ⟨line, overrideSource sweep.override⟩ :: sweep.pieces
      override := sweep.override + 1 } := by
  obtain ⟨done, pieces, woven⟩ := off.pieces
  refine ⟨Nat.le_refl _, fun later member => ?_, off.behind,
    ⟨done ++ window ranges start position ++ [line], ?_, ?_⟩, ?_⟩
  · have apart := stop_lt_start_of_later row found later member
    omega
  · rw [window_self, List.append_nil, List.reverse_cons, List.map_append, pieces]
    rfl
  · rw [woven, drop_eq_cons found, weave, starts, stops]
    simp only [List.append_assoc, List.singleton_append]
  · rintro piece isLast
    cases isLast
    refine Or.inl ⟨rfl, ?_, ?_⟩
    all_goals simp only [overrideSource]
    all_goals omega

/-- Passing the overrides at a cut leaves none there that is done. -/
theorem Stands.advance (stands : Stands ranges overrides length position sweep)
    (row : Span.Row 1 length 0 (overrides.map Region.span)) :
    Stands ranges overrides length position (sweep.advance overrides position) ∧
      Settled overrides position (sweep.advance overrides position) := by
  rcases stands with ⟨start, off⟩ | ⟨line, within⟩
  · by_cases point : ∃ line, overrides[sweep.override]? = some line ∧
        line.span.start = position ∧ line.span.stop = position
    · obtain ⟨line, found, starts, stops⟩ := point
      rw [advance_of_point row found starts stops]
      exact ⟨Or.inl ⟨_, off.point row found starts stops⟩, settled_of_stop row found stops _ rfl⟩
    · have settled : Settled overrides position sweep := by
        intro line found
        have reached := off.ahead line (by rw [drop_eq_cons found]; exact List.mem_cons_self)
        have forward := (row.stop_le (List.mem_map_of_mem (List.mem_of_getElem? found))).1
        have notPoint : ¬(line.span.start = position ∧ line.span.stop = position) :=
          fun isPoint => point ⟨line, found, isPoint⟩
        omega
      rw [advance_of_settled settled]
      exact ⟨Or.inl ⟨start, off⟩, settled⟩
  · have begun := within.begun
    rcases Nat.eq_or_lt_of_le within.inside with stops | goesOn
    · rw [advance_of_stop row within.found (by omega) stops.symm]
      exact ⟨Or.inl ⟨_, within.off row stops.symm⟩,
        settled_of_stop row within.found stops.symm _ rfl⟩
    · have settled : Settled overrides position sweep := by
        intro other isOther
        rw [within.found] at isOther
        cases isOther
        exact goesOn
      rw [advance_of_settled settled]
      exact ⟨Or.inr ⟨line, within⟩, settled⟩

/-! ### The stretch up to the next cut -/

/-- A range goes on at each position within the text, and the look-up of the first one that does
finds it. -/
theorem exists_reach (tile : Tile 0 length ranges) (inside : position < length) (first : Nat)
    (behind : ∀ range ∈ ranges.take first, range.span.stop ≤ position) :
    ∃ number range, Sweep.reach position (ranges.drop first) first = .ok (number, range) ∧
      ranges[number]? = some range ∧ range.span.Covers position ∧
        ∀ earlier ∈ ranges.take number, earlier.span.stop ≤ position := by
  obtain ⟨cover, member, covers⟩ := tile.exists_covers position (Nat.zero_le _) inside
  generalize left : ranges.drop first = rest
  induction rest generalizing first with
  | nil =>
    rw [List.drop_eq_nil_iff] at left
    rw [List.take_of_length_le left] at behind
    exact absurd (behind cover member) (Nat.not_le_of_lt covers.2)
  | cons range later inductionHypothesis =>
    have found : ranges[first]? = some range := by rw [← List.head?_drop, left]; rfl
    rw [Sweep.reach]
    by_cases done : range.span.stop ≤ position
    · rw [if_pos done]
      refine inductionHypothesis (first + 1) (fun other isEarlier => ?_) (by
        rw [← List.tail_drop, left]; rfl)
      rw [List.take_add_one, found] at isEarlier
      rcases List.mem_append.mp isEarlier with isBefore | isRange
      · exact behind other isBefore
      · rw [List.mem_singleton.mp isRange]
        exact done
    · refine ⟨first, range, if_neg done, found, ⟨?_, Nat.lt_of_not_le done⟩, behind⟩
      -- What covers the position is this range or a later one.
      rw [← List.take_append_drop first ranges, left] at tile member
      obtain ⟨_, apart, _⟩ := List.pairwise_append.mp tile.pairwise
      rcases List.mem_append.mp member with isBefore | isLeft
      · exact absurd (behind cover isBefore) (Nat.not_le_of_lt covers.2)
      · have reached := covers.1
        rcases List.mem_cons.mp isLeft with rfl | isLater
        · exact reached
        · have beyond := (List.pairwise_cons.mp apart).1 cover isLater
          omega

/-- A piece is not joined to one from another source. -/
theorem join_of_ne (piece : Piece) (pieces : List Piece)
    (different : ∀ last ∈ pieces.head?, last.source ≠ piece.source) :
    Sweep.join piece pieces = piece :: pieces := by
  cases pieces with
  | nil => rfl
  | cons last earlier =>
    rw [Sweep.join, if_neg fun same => different last rfl same.1]

/-- From where an override begins the sweep is within it. -/
theorem Off.within {start stop number : Nat}
    (off : Off ranges overrides length start position sweep)
    (found : overrides[sweep.override]? = some line) (starts : line.span.start = position)
    (forward : position < stop) (inside : stop ≤ line.span.stop)
    (behind : ∀ range ∈ ranges.take number, range.span.stop ≤ position) :
    Within ranges overrides length line stop
      ⟨Sweep.join ⟨⟨⟨position, stop⟩, line.enabled⟩, overrideSource sweep.override⟩ sweep.pieces,
        number, sweep.override⟩ := by
  obtain ⟨done, pieces, woven⟩ := off.pieces
  have separate : ∀ last ∈ sweep.pieces.head?, last.source ≠ overrideSource sweep.override := by
    intro last isLast
    rcases off.last last isLast with ⟨_, later, _⟩ | ⟨_, number, _, _, source, _⟩
    · exact fun same => absurd later (by omega)
    · rw [source, overrideSource]
      omega
  refine ⟨found, by omega, inside,
    fun range member => Nat.le_trans (behind range member) (Nat.le_of_lt forward),
    sweep.pieces, ?_, ?_⟩
  · rw [join_of_ne _ _ separate, starts]
  · rw [woven, drop_eq_cons found, weave, starts, pieces, List.append_assoc]

/-- Within an override the sweep goes on up to the next cut. -/
theorem Within.further {stop number : Nat}
    (within : Within ranges overrides length line position sweep)
    (forward : position < stop) (inside : stop ≤ line.span.stop)
    (behind : ∀ range ∈ ranges.take number, range.span.stop ≤ position) :
    Within ranges overrides length line stop
      ⟨Sweep.join ⟨⟨⟨position, stop⟩, line.enabled⟩, overrideSource sweep.override⟩ sweep.pieces,
        number, sweep.override⟩ := by
  obtain ⟨earlier, pieces, woven⟩ := within.pieces
  refine ⟨within.found, Nat.lt_trans within.begun forward, inside,
    fun range member => Nat.le_trans (behind range member) (Nat.le_of_lt forward),
    earlier, ?_, woven⟩
  rw [pieces, Sweep.join, if_pos ⟨rfl, rfl⟩]

theorem source_join (piece : Piece) (pieces : List Piece) :
    ∀ last ∈ (Sweep.join piece pieces).head?, last.source = piece.source := by
  intro last isLast
  cases pieces with
  | nil =>
    cases isLast
    rfl
  | cons previous earlier =>
    rw [Sweep.join] at isLast
    split at isLast
    case isTrue same =>
      cases isLast
      exact same.1
    case isFalse =>
      cases isLast
      rfl

/-- The last of some pieces and those before it. -/
theorem exists_last {pieces : List Piece} {before : List Region} {part : Region}
    (parts : pieces.reverse.map Piece.region = before ++ [part]) :
    ∃ last earlier, pieces = last :: earlier ∧ last.region = part ∧
      earlier.reverse.map Piece.region = before := by
  cases pieces with
  | nil => exact absurd parts (by simp)
  | cons last earlier =>
    rw [List.reverse_cons, List.map_append] at parts
    obtain ⟨same, isPart⟩ := List.append_inj' parts rfl
    exact ⟨last, earlier, rfl, by simpa using isPart, same⟩

/-- Two ranges of a tiling that reach a position from before it are one. -/
theorem number_eq_of_reach (tile : Tile 0 length ranges) {number other : Nat}
    {range otherRange : Region} (found : ranges[number]? = some range)
    (otherFound : ranges[other]? = some otherRange) (begun : range.span.start < position)
    (otherBegun : otherRange.span.start < position) (inside : position ≤ range.span.stop)
    (otherInside : position ≤ otherRange.span.stop) : other = number := by
  obtain ⟨bound, rfl⟩ := List.getElem?_eq_some_iff.mp found
  obtain ⟨otherBound, rfl⟩ := List.getElem?_eq_some_iff.mp otherFound
  have apart := List.pairwise_iff_getElem.mp tile.pairwise
  rcases Nat.lt_trichotomy other number with less | same | greater
  · have := apart other number otherBound bound less
    omega
  · exact same
  · have := apart number other bound otherBound greater
    omega

/-- Off the overrides the sweep goes on in the range that covers its position. -/
theorem Off.further {start stop number : Nat} {range : Region}
    (off : Off ranges overrides length start position sweep) (tile : Tile 0 length ranges)
    (found : ranges[number]? = some range) (covers : range.span.Covers position)
    (forward : position < stop) (inside : stop ≤ range.span.stop)
    (ahead : ∀ line ∈ overrides.drop sweep.override, stop ≤ line.span.start)
    (behind : ∀ range ∈ ranges.take number, range.span.stop ≤ position) :
    Off ranges overrides length start stop
      ⟨Sweep.join ⟨⟨⟨position, stop⟩, range.enabled⟩, number⟩ sweep.pieces, number,
        sweep.override⟩ := by
  obtain ⟨done, pieces, woven⟩ := off.pieces
  have member := List.mem_of_getElem? found
  have reached := covers.1
  have goesOn := covers.2
  have fromStart := off.forward
  have upTo := window_eq_append tile range member start position (by omega) (by omega)
  have beyond := window_eq_append tile range member start stop (by omega) inside
  rw [if_pos (by omega)] at beyond
  refine ⟨by omega, ahead,
    fun range member => Nat.le_trans (behind range member) (Nat.le_of_lt forward),
    ⟨done, ?_, woven⟩, fun last isLast => Or.inr ⟨by omega, number, range, found,
      source_join _ _ last isLast, by omega, inside⟩⟩
  by_cases begun : max range.span.start start < position
  -- The last piece is the part of the range so far.
  · rw [if_pos begun] at upTo
    rw [upTo, ← List.append_assoc] at pieces
    obtain ⟨last, earlier, split, isPart, isDone⟩ := exists_last pieces
    have sameSource : last.source = number := by
      rcases off.last last (by rw [split]; rfl) with
        ⟨isStart, _⟩ | ⟨_, other, otherRange, otherFound, source, otherBegun, otherInside⟩
      · omega
      · rw [source, number_eq_of_reach tile found otherFound (by omega) otherBegun (by omega)
          otherInside]
    have touches : last.region.span.stop = position := by rw [isPart]
    rw [split, Sweep.join, if_pos ⟨sameSource, touches⟩, List.reverse_cons, List.map_append,
      isDone, beyond, isPart, List.append_assoc]
    rfl
  -- The range, or the stretch behind an override, begins here.
  · rw [if_neg begun, List.append_nil] at upTo
    have separate : ∀ last ∈ sweep.pieces.head?, last.source ≠ number := by
      intro last isLast
      rcases off.last last isLast with
        ⟨_, _, negative⟩ | ⟨later, other, otherRange, otherFound, source, otherBegun, _⟩
      · omega
      · rw [source]
        rintro same
        rw [Int.natCast_inj.mp same, found] at otherFound
        cases otherFound
        omega
    have begins : max range.span.start start = position := by omega
    rw [join_of_ne _ _ separate, List.reverse_cons, List.map_append, pieces, upTo, beyond, begins,
      List.append_assoc]
    rfl

/-! ### The run over the cuts -/

/-- Between two neighbouring cuts the sweep goes on without failing. -/
theorem Stands.turn {stop : Nat} (stands : Stands ranges overrides length position sweep)
    (tile : Tile 0 length ranges) (row : Span.Row 1 length 0 (overrides.map Region.span))
    (forward : position < stop) (inside : stop ≤ length)
    (free : Free ranges overrides length position stop) :
    ∃ next, sweep.turn ranges overrides position stop = .ok next ∧
      Stands ranges overrides length stop next := by
  obtain ⟨passedStands, settled⟩ := stands.advance row
  rw [Sweep.turn]
  generalize sweep.advance overrides position = passed at passedStands settled ⊢
  have behindPassed : ∀ range ∈ ranges.take passed.range, range.span.stop ≤ position := by
    rcases passedStands with ⟨_, off⟩ | ⟨_, within⟩
    · exact off.behind
    · exact within.behind
  obtain ⟨number, range, reached, found, covers, behind⟩ :=
    exists_reach tile (Nat.lt_of_lt_of_le forward inside) passed.range behindPassed
  have goesOn := free.le_stop tile range (List.mem_of_getElem? found) covers.2
  rw [reached]
  refine ⟨_, rfl, ?_⟩
  rcases passedStands with ⟨start, off⟩ | ⟨line, within⟩
  · cases next : overrides[passed.override]? with
    | none =>
      refine Or.inl ⟨start, off.further tile found covers forward goesOn (fun line member => ?_)
        behind⟩
      rw [List.drop_eq_nil_of_le (List.getElem?_eq_none_iff.mp next)] at member
      exact absurd member List.not_mem_nil
    | some line =>
      have reachedNot := off.ahead line (by rw [drop_eq_cons next]; exact List.mem_cons_self)
      obtain ⟨upToStart, upToStop⟩ := free.le_override line (List.mem_of_getElem? next)
      have stops := upToStop (settled line next)
      by_cases begins : line.span.start = position
      · rw [Sweep.piece, if_pos ⟨Nat.le_of_eq begins, stops⟩]
        exact Or.inr ⟨line, off.within next begins forward stops behind⟩
      · have beyond := upToStart (by omega)
        rw [Sweep.piece, if_neg (by omega)]
        refine Or.inl ⟨start, off.further tile found covers forward goesOn (fun other member => ?_)
          behind⟩
        rw [drop_eq_cons next] at member
        rcases List.mem_cons.mp member with rfl | isLater
        · exact beyond
        · have apart := stop_lt_start_of_later row next other isLater
          omega
  · have stops := (free.le_override line (List.mem_of_getElem? within.found)).2
      (settled line within.found)
    rw [within.found, Sweep.piece, if_pos ⟨Nat.le_of_lt within.begun, stops⟩]
    exact Or.inr ⟨line, within.further forward stops behind⟩

/-- A run over the cuts from one of them on goes to the end of the text. -/
theorem Stands.run (stands : Stands ranges overrides length position sweep)
    (tile : Tile 0 length ranges) (row : Span.Row 1 length 0 (overrides.map Region.span))
    (earlier later : List Nat) (split : cuts ranges overrides length = earlier ++ position :: later) :
    ∃ swept, Sweep.run ranges overrides (position :: later) sweep = .ok swept ∧
      Stands ranges overrides length length swept := by
  have ascending := cuts_pairwise ranges overrides length
  induction later generalizing earlier position sweep with
  | nil =>
    have isLast : position = length := by
      have isCut : length ∈ cuts ranges overrides length := (mem_cuts _ _ _ _).mpr (by simp)
      have bound := cuts_le tile row position (by rw [split]; simp)
      rw [split] at isCut ascending
      obtain ⟨_, _, before⟩ := List.pairwise_append.mp ascending
      rcases List.mem_append.mp isCut with isEarlier | isLast
      · have less := before length isEarlier position (List.mem_singleton_self _)
        omega
      · exact (List.mem_singleton.mp isLast).symm
    exact ⟨sweep, rfl, isLast ▸ stands⟩
  | cons stop later inductionHypothesis =>
    have bound := cuts_le tile row stop (by rw [split]; simp)
    have order := ascending
    rw [split] at order
    obtain ⟨_, fromHere, before⟩ := List.pairwise_append.mp order
    obtain ⟨beyond, fromStop⟩ := List.pairwise_cons.mp fromHere
    have free : Free ranges overrides length position stop := by
      intro cut isCut
      rw [split] at isCut
      rcases List.mem_append.mp isCut with isEarlier | isHere
      · exact Or.inl (Nat.le_of_lt (before cut isEarlier position List.mem_cons_self))
      · rcases List.mem_cons.mp isHere with rfl | isLater
        · exact Or.inl (Nat.le_refl _)
        · rcases List.mem_cons.mp isLater with rfl | isBeyond
          · exact Or.inr (Nat.le_refl _)
          · exact Or.inr (Nat.le_of_lt ((List.pairwise_cons.mp fromStop).1 cut isBeyond))
    obtain ⟨next, turned, nextStands⟩ :=
      stands.turn tile row (beyond stop List.mem_cons_self) bound free
    obtain ⟨swept, ran, sweptStands⟩ :=
      inductionHypothesis nextStands (earlier ++ [position]) (by rw [split]; simp)
    refine ⟨swept, ?_, sweptStands⟩
    rw [Sweep.run, turned]
    exact ran

/-- The sweep does not fail, and puts the overrides in their places. -/
theorem override_eq_weave (tile : Tile 0 length ranges)
    (row : Span.Row 1 length 0 (overrides.map Region.span)) (positive : 0 < length) :
    override ranges overrides length = .ok (weave ranges length 0 overrides) := by
  obtain ⟨later, split⟩ := exists_cuts_eq_cons ranges overrides length
  obtain ⟨swept, ran, stands⟩ := Stands.run (Or.inl ⟨0, off_start ranges overrides length⟩)
    tile row [] later split
  have pieces : (swept.advance overrides length).pieces.reverse.map Piece.region =
      weave ranges length 0 overrides := by
    obtain ⟨passedStands, settled⟩ := stands.advance row
    generalize swept.advance overrides length = passed at passedStands settled ⊢
    have noneLeft (line : Region) : overrides[passed.override]? ≠ some line := fun found =>
      absurd (settled line found) (Nat.not_lt_of_le
        (row.stop_le (List.mem_map_of_mem (List.mem_of_getElem? found))).2)
    rcases passedStands with ⟨start, off⟩ | ⟨line, within⟩
    · obtain ⟨done, pieces, woven⟩ := off.pieces
      rw [List.drop_eq_nil_of_le (List.getElem?_eq_none_iff.mp
        (Option.eq_none_iff_forall_ne_some.mpr noneLeft))] at woven
      rw [pieces, woven, weave]
    · exact absurd within.found (noneLeft line)
  have tiled := weave_tile tile 0 overrides row
  rw [← pieces] at tiled ⊢
  cases isLast : (swept.advance overrides length).pieces with
  | nil =>
    rw [isLast] at tiled
    have empty : 0 = length := tiled
    omega
  | cons piece pieces =>
    rw [override, split, ran]
    dsimp only [bind, Except.bind]
    rw [isLast]
    rfl

end SourceLint.Region
