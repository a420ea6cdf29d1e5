/-
This file says which lines next-line directives govern, and by which directive each is governed.
The line a directive governs is the one after its own, where its own line is found by the look-up of
a position, which never fails at a directive. Of the directives for one line the last wins: the
regions put in the place of the ranges are the governed lines in text order, each once, with the
polarity of the last directive for it.
-/
import Mathlib.Data.List.Sort
import SourceLint.Proofs.Directive.Positions
import SourceLint.Proofs.Lines.Placement
import SourceLint.Proofs.Region.Tiling

namespace SourceLint

/-- The line that a directive governs: for a next-line directive the line after its own. -/
def Directive.governed? (lines : Lines) (directive : Directive) : Option Line :=
  if directive.nextLine then
    match lines.lineAt directive.index with
    | .ok number => lines.all[number + 1]?
    | .error _ => none
  else none

/-- The last of some directives that governs a line. -/
def Directive.lastGoverning? (lines : Lines) (directives : List Directive) (line : Line) :
    Option Directive :=
  (directives.filter fun directive => directive.governed? lines = some line).getLast?

/-- The lines that some of the directives govern. -/
def Lines.governed (lines : Lines) (directives : List Directive) : List Line :=
  lines.all.filter fun line => directives.any fun directive => directive.governed? lines = some line

variable (content check : Text)

/-! ### The line of a directive -/

/-- A directive stands in a line, and the look-up of its place finds that line. -/
theorem Directive.exists_lineAt_eq_ok (directive : Directive)
    (member : directive ∈ find content check) :
    ∃ number line, (Lines.ofText content).all[number]? = some line ∧
      line.span.Covers directive.index ∧
      (Lines.ofText content).lineAt directive.index = .ok number := by
  obtain ⟨line, inLines, covers⟩ := Lines.exists_line_of_unit content directive.index _
    (unit_of_mem_find content check directive member) (by decide) (by decide)
  obtain ⟨number, found⟩ := List.mem_iff_getElem?.mp inLines
  exact ⟨number, line, found, covers,
    Lines.lineAt_eq_ok content number line found _ covers.1 (Nat.le_of_lt covers.2)⟩

namespace Region

/-- The region of the line that a directive governs, with the polarity of the directive. -/
def target? (lines : Lines) (directive : Directive) : Option Region :=
  (directive.governed? lines).map fun line => ⟨line.span, directive.enables⟩

/-- The lines that directives govern, one region for each directive. -/
def targets (lines : Lines) (directives : List Directive) : List Region :=
  directives.filterMap (target? lines)

/-! ### The last of each -/

/-- Of neighbours that begin at one place only the last. -/
def lastOfEach : List Region → List Region
  | [] => []
  | [region] => [region]
  | region :: next :: rest =>
    if region.span.start = next.span.start then lastOfEach (next :: rest)
    else region :: lastOfEach (next :: rest)

/-- Regions come in the order of their starts. -/
def Ordered (regions : List Region) : Prop :=
  regions.Pairwise fun earlier later => earlier.span.start ≤ later.span.start

theorem lastOfEach_sublist (regions : List Region) : (lastOfEach regions).Sublist regions := by
  fun_induction lastOfEach regions with
  | case1 => exact List.Sublist.refl _
  | case2 => exact List.Sublist.refl _
  | case3 region next rest _ inductionHypothesis => exact inductionHypothesis.cons region
  | case4 region next rest _ inductionHypothesis => exact inductionHypothesis.cons_cons region

/-- A region that begins before the next one begins before all later ones. -/
theorem Ordered.start_lt {region next : Region} {rest : List Region}
    (ordered : Ordered (region :: next :: rest)) (different : region.span.start ≠ next.span.start)
    (later : Region) (member : later ∈ next :: rest) : region.span.start < later.span.start := by
  obtain ⟨least, restOrdered⟩ := List.pairwise_cons.mp ordered
  have less := Nat.lt_of_le_of_ne (least next List.mem_cons_self) different
  rcases List.mem_cons.mp member with same | inRest
  · rw [same]
    exact less
  · exact Nat.lt_of_lt_of_le less ((List.pairwise_cons.mp restOrdered).1 later inRest)

/-- The last of each have distinct starts. -/
theorem lastOfEach_pairwise (regions : List Region) (ordered : Ordered regions) :
    (lastOfEach regions).Pairwise fun earlier later => earlier.span.start < later.span.start := by
  fun_induction lastOfEach regions with
  | case1 => exact List.Pairwise.nil
  | case2 => exact List.pairwise_singleton _ _
  | case3 region next rest _ inductionHypothesis =>
    exact inductionHypothesis (List.pairwise_cons.mp ordered).2
  | case4 region next rest different inductionHypothesis =>
    refine List.pairwise_cons.mpr
      ⟨fun later member => ?_, inductionHypothesis (List.pairwise_cons.mp ordered).2⟩
    exact ordered.start_lt different later ((lastOfEach_sublist _).subset member)

/-- A region is kept if it is the last one with its start. -/
theorem mem_lastOfEach (regions : List Region) (ordered : Ordered regions) (kept : Region) :
    kept ∈ lastOfEach regions ↔
      (regions.filter fun region => region.span.start = kept.span.start).getLast? = some kept := by
  fun_induction lastOfEach regions with
  | case1 => simp
  | case2 region =>
    by_cases here : region.span.start = kept.span.start
    · simp [here, eq_comm]
    · have different : kept ≠ region := by
        rintro rfl
        exact here rfl
      simp [here, different]
  | case3 region next rest same inductionHypothesis =>
    rw [inductionHypothesis (List.pairwise_cons.mp ordered).2]
    by_cases here : next.span.start = kept.span.start
    · simp [same, here]
    · simp [same, here]
  | case4 region next rest different inductionHypothesis =>
    rw [List.mem_cons, inductionHypothesis (List.pairwise_cons.mp ordered).2]
    by_cases here : region.span.start = kept.span.start
    -- No later region begins where this one does.
    · have noLater :
          (next :: rest).filter (fun region => region.span.start = kept.span.start) = [] := by
        rw [List.filter_eq_nil_iff]
        intro later member
        have beyond := ordered.start_lt different later member
        simpa using show later.span.start ≠ kept.span.start by omega
      rw [List.filter_cons_of_pos (a := region) (by simpa using here), noLater]
      simp [eq_comm]
    · have unlike : kept ≠ region := by
        rintro rfl
        exact here rfl
      rw [List.filter_cons_of_neg (a := region) (by simpa using here)]
      simp only [unlike, false_or]

/-! ### The governed lines in their places -/

/-- A governed line is one of the lines. -/
theorem mem_all_of_governed? (lines : Lines) (directive : Directive) (line : Line)
    (governs : directive.governed? lines = some line) : line ∈ lines.all := by
  rw [Directive.governed?] at governs
  split at governs
  · split at governs
    · exact List.mem_of_getElem? governs
    · exact absurd governs (by simp)
  · exact absurd governs (by simp)

/-- A directive that governs a line stands in the line before it. -/
theorem exists_of_governed? (directive : Directive)
    (member : directive ∈ Directive.find content check) (line : Line)
    (governs : directive.governed? (Lines.ofText content) = some line) :
    ∃ number own, (Lines.ofText content).all[number]? = some own ∧
      own.span.Covers directive.index ∧ (Lines.ofText content).all[number + 1]? = some line := by
  obtain ⟨number, own, found, covers, looked⟩ :=
    Directive.exists_lineAt_eq_ok content check directive member
  refine ⟨number, own, found, covers, ?_⟩
  rw [Directive.governed?, looked] at governs
  split at governs
  · exact governs
  · exact absurd governs (by simp)

/-- Later directives govern later lines. -/
theorem targets_ordered :
    Ordered (targets (Lines.ofText content) (Directive.find content check)) := by
  refine List.pairwise_filterMap.mpr ((Directive.find_pairwise content check).imp_of_mem ?_)
  intro directive next member nextMember before region isTarget nextRegion isNextTarget
  obtain ⟨line, governs, rfl⟩ := Option.map_eq_some_iff.mp isTarget
  obtain ⟨nextLine, nextGoverns, rfl⟩ := Option.map_eq_some_iff.mp isNextTarget
  obtain ⟨number, own, ownLine, ⟨ownStart, _⟩, found⟩ :=
    exists_of_governed? content check directive member line governs
  obtain ⟨nextNumber, nextOwn, nextOwnLine, ⟨_, nextOwnStop⟩, nextFound⟩ :=
    exists_of_governed? content check next nextMember nextLine nextGoverns
  rcases Nat.lt_trichotomy number nextNumber with less | rfl | greater
  · have apart := Lines.stop_lt_of_index_lt content (number + 1) (nextNumber + 1) (by omega)
      line nextLine found nextFound
    exact Nat.le_of_lt (Nat.lt_of_le_of_lt (Nat.le_add_right _ _) apart)
  · rw [found] at nextFound
    cases nextFound
    exact Nat.le_refl _
  -- The lines of the directives come in the order of the directives.
  · have apart := Lines.stop_lt_of_index_lt content nextNumber number greater nextOwn own
      nextOwnLine ownLine
    have late : next.index < nextOwn.stop := nextOwnStop
    have early : own.start ≤ directive.index := ownStart
    omega

/-- The targets that begin where a line begins are those of the directives that govern it. -/
theorem filter_target? (directives : List Directive) (line : Line)
    (member : line ∈ (Lines.ofText content).all) :
    (directives.filterMap (target? (Lines.ofText content))).filter
        (fun region => region.span.start = line.start) =
      (directives.filter fun directive =>
          directive.governed? (Lines.ofText content) = some line).map
        fun directive => ⟨line.span, directive.enables⟩ := by
  induction directives with
  | nil => rfl
  | cons directive rest inductionHypothesis =>
    cases governs : directive.governed? (Lines.ofText content) with
    | none =>
      rw [List.filterMap_cons_none (by rw [target?, governs]; rfl), inductionHypothesis,
        List.filter_cons_of_neg (by simp [governs])]
    | some other =>
      have otherMember := mem_all_of_governed? _ directive other governs
      rw [List.filterMap_cons_some (b := ⟨other.span, directive.enables⟩)
        (by rw [target?, governs]; rfl)]
      by_cases same : other = line
      · subst same
        rw [List.filter_cons_of_pos (by simp [Line.span]), inductionHypothesis,
          List.filter_cons_of_pos (by simp [governs]), List.map_cons]
      · have apart : other.start ≠ line.start := fun equal => same <|
          Lines.eq_of_touching content other line otherMember member
            (by rw [equal]; exact Nat.le_add_right _ _)
            (by rw [← equal]; exact Nat.le_add_right _ _)
        rw [List.filter_cons_of_neg (by simp [Line.span, apart]), inductionHypothesis,
          List.filter_cons_of_neg (by simpa [governs] using same)]

/-- The last target that begins where a line begins is that of the last directive for the line. -/
theorem getLast?_filter_targets (line : Line) (member : line ∈ (Lines.ofText content).all) :
    ((targets (Lines.ofText content) (Directive.find content check)).filter
        fun region => region.span.start = line.start).getLast? =
      (Directive.lastGoverning? (Lines.ofText content) (Directive.find content check) line).map
        fun directive => ⟨line.span, directive.enables⟩ := by
  rw [targets, filter_target? content _ line member, List.getLast?_map]
  rfl

instance : Std.Irrefl fun earlier later : Region => earlier.span.start < later.span.start :=
  ⟨fun _ => Nat.lt_irrefl _⟩

instance : Std.Antisymm fun earlier later : Region => earlier.span.start < later.span.start :=
  ⟨fun _ _ forward backward => absurd backward (Nat.lt_asymm forward)⟩

/-- The regions that take the place of the ranges: one for each governed line, in the order of the
lines, with the polarity of the last directive that governs it. -/
theorem lastOfEach_targets :
    lastOfEach (targets (Lines.ofText content) (Directive.find content check)) =
      (Lines.ofText content).all.filterMap fun line =>
        (Directive.lastGoverning? (Lines.ofText content) (Directive.find content check) line).map
          fun directive => ⟨line.span, directive.enables⟩ := by
  have ordered := targets_ordered content check
  refine (lastOfEach_pairwise _ ordered).eq_of_mem_iff ?_ fun kept => ?_
  · refine List.pairwise_filterMap.mpr ((Lines.stop_lt_start content).imp ?_)
    intro line next apart region isRegion nextRegion isNextRegion
    obtain ⟨_, _, rfl⟩ := Option.map_eq_some_iff.mp isRegion
    obtain ⟨_, _, rfl⟩ := Option.map_eq_some_iff.mp isNextRegion
    exact Nat.lt_of_le_of_lt (Nat.le_add_right _ _) apart
  · rw [List.mem_filterMap]
    constructor
    · intro isKept
      have inTargets := (lastOfEach_sublist _).subset isKept
      obtain ⟨directive, _, isTarget⟩ := List.mem_filterMap.mp inTargets
      obtain ⟨line, governs, rfl⟩ := Option.map_eq_some_iff.mp isTarget
      have member := mem_all_of_governed? _ directive line governs
      refine ⟨line, member, ?_⟩
      rw [← getLast?_filter_targets content check line member]
      exact (mem_lastOfEach _ ordered _).mp isKept
    · rintro ⟨line, member, isLast⟩
      have sameStart : kept.span.start = line.start := by
        obtain ⟨_, _, rfl⟩ := Option.map_eq_some_iff.mp isLast
        rfl
      rw [mem_lastOfEach _ ordered, sameStart, getLast?_filter_targets content check line member]
      exact isLast

theorem lastGoverning?_eq_none_iff (lines : Lines) (directives : List Directive) (line : Line) :
    Directive.lastGoverning? lines directives line = none ↔
      ∀ directive ∈ directives, directive.governed? lines ≠ some line := by
  rw [Directive.lastGoverning?, List.getLast?_eq_none_iff, List.filter_eq_nil_iff]
  simp only [decide_eq_true_eq, ne_eq]

/-- A governed line has a last directive that governs it. -/
theorem exists_lastGoverning? (lines : Lines) (directives : List Directive) (line : Line)
    (member : line ∈ lines.governed directives) :
    ∃ directive, Directive.lastGoverning? lines directives line = some directive := by
  obtain ⟨directive, inDirectives, governs⟩ := List.any_eq_true.mp (List.mem_filter.mp member).2
  rw [← Option.ne_none_iff_exists', ne_eq, lastGoverning?_eq_none_iff]
  intro none
  exact none directive inDirectives (of_decide_eq_true governs)

/-- The regions that take the place of the ranges lie where the governed lines lie. -/
theorem map_span_lastOfEach_targets :
    (lastOfEach (targets (Lines.ofText content) (Directive.find content check))).map Region.span =
      ((Lines.ofText content).governed (Directive.find content check)).map Line.span := by
  rw [lastOfEach_targets, List.map_filterMap, Lines.governed, ← List.filterMap_eq_map,
    List.filterMap_filter]
  refine List.filterMap_congr fun line _ => ?_
  rw [Option.map_map]
  cases isLast : Directive.lastGoverning? (Lines.ofText content)
      (Directive.find content check) line with
  | none =>
    rw [lastGoverning?_eq_none_iff] at isLast
    rw [if_neg (by simpa using isLast)]
    rfl
  | some directive =>
    obtain ⟨member, governs⟩ := List.mem_filter.mp (List.mem_of_getLast? isLast)
    rw [if_pos (List.any_eq_true.mpr ⟨directive, member, governs⟩)]
    rfl

theorem forall_mem_lastOfEach_targets (property : Span → Prop) :
    (∀ region ∈ lastOfEach (targets (Lines.ofText content) (Directive.find content check)),
        property region.span) ↔
      ∀ line ∈ (Lines.ofText content).governed (Directive.find content check),
        property line.span := by
  rw [← List.forall_mem_map (f := Region.span), map_span_lastOfEach_targets, List.forall_mem_map]

theorem exists_mem_lastOfEach_targets (property : Span → Prop) :
    (∃ region ∈ lastOfEach (targets (Lines.ofText content) (Directive.find content check)),
        property region.span) ↔
      ∃ line ∈ (Lines.ofText content).governed (Directive.find content check),
        property line.span := by
  have noneHolds := not_congr (forall_mem_lastOfEach_targets content check
    fun span => ¬property span)
  push Not at noneHolds
  exact noneHolds

/-- The first line is not governed. -/
theorem start_pos_of_mem_governed (line : Line)
    (member : line ∈ (Lines.ofText content).governed (Directive.find content check)) :
    0 < line.start := by
  obtain ⟨directive, inDirectives, governs⟩ := List.any_eq_true.mp (List.mem_filter.mp member).2
  obtain ⟨number, own, ownLine, _, found⟩ := exists_of_governed? content check directive
    inDirectives line (of_decide_eq_true governs)
  have apart := Lines.stop_lt_of_index_lt content number (number + 1) (Nat.lt_succ_self _)
    own line ownLine found
  exact Nat.lt_of_le_of_lt (Nat.zero_le _) apart

/-- No two governed lines touch, and the first does not begin the text. -/
theorem row_lastOfEach_targets :
    Span.Row 1 content.length 0
      ((lastOfEach (targets (Lines.ofText content) (Directive.find content check))).map
        Region.span) := by
  rw [map_span_lastOfEach_targets]
  refine Span.row_of_pairwise 0 _ (Nat.zero_le _) ?_ ?_
  · rw [List.pairwise_map]
    exact (Lines.stop_lt_start content).sublist List.filter_sublist
  · intro span member
    obtain ⟨line, isGoverned, rfl⟩ := List.mem_map.mp member
    exact ⟨start_pos_of_mem_governed content check line isGoverned, Nat.le_add_right _ _,
      Lines.stop_le_length content line (List.mem_filter.mp isGoverned).1⟩

end Region

end SourceLint
