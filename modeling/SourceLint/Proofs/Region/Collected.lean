/-
This file says what is collected from the directives of a text and what the sweep makes of it. The
ranges are the stretches between range directives, without the empty ones; the overrides are the
governed lines, of which the last directive for a line decides. No step fails, so the regions of a
text are its ranges with the governed lines woven in.
-/
import SourceLint.Proofs.Region.Governed
import SourceLint.Proofs.Region.Sweep

namespace SourceLint.Region

/-! ### The ranges between range directives -/

/-- The stretches between range directives, the first from `start`; some may be empty. -/
def ranges (length : Nat) : Nat → Bool → List Directive → List Region
  | start, enabled, [] => [⟨⟨start, length⟩, enabled⟩]
  | start, enabled, directive :: rest =>
    if directive.nextLine then ranges length start enabled rest
    else ⟨⟨start, directive.index⟩, enabled⟩ :: ranges length directive.index directive.enables rest

section Ranges

variable (length : Nat)

/-- The ranges begin at the first position and at each range directive. -/
theorem mem_starts_ranges (start : Nat) (enabled : Bool) (directives : List Directive)
    (position : Nat) :
    position ∈ (ranges length start enabled directives).map (·.span.start) ↔
      position = start ∨
        ∃ directive ∈ directives, directive.nextLine = false ∧ directive.index = position := by
  induction directives generalizing start enabled with
  | nil => simp [ranges]
  | cons directive rest inductionHypothesis =>
    rw [ranges]
    cases limited : directive.nextLine with
    | true =>
      rw [if_pos rfl, inductionHypothesis]
      simp [limited]
    | false =>
      rw [if_neg Bool.false_ne_true, List.map_cons, List.mem_cons, inductionHypothesis,
        @eq_comm _ position directive.index]
      simp only [List.mem_cons, exists_eq_or_imp, limited, true_and]

/-- The ranges of directives in text order tile the text. -/
theorem ranges_tile (start : Nat) (enabled : Bool) (directives : List Directive)
    (ordered : directives.Pairwise fun earlier later => earlier.index < later.index)
    (after : ∀ directive ∈ directives, start ≤ directive.index)
    (before : ∀ directive ∈ directives, directive.index < length) (forward : start ≤ length) :
    Tile start length (ranges length start enabled directives) := by
  induction directives generalizing start enabled with
  | nil => exact ⟨rfl, forward, rfl⟩
  | cons directive rest inductionHypothesis =>
    obtain ⟨least, restOrdered⟩ := List.pairwise_cons.mp ordered
    obtain ⟨begins, restAfter⟩ := List.forall_mem_cons.mp after
    obtain ⟨inside, restBefore⟩ := List.forall_mem_cons.mp before
    rw [ranges]
    split
    · exact inductionHypothesis _ _ restOrdered restAfter restBefore forward
    · exact ⟨rfl, begins, inductionHypothesis _ _ restOrdered
        (fun later member => Nat.le_of_lt (least later member)) restBefore (Nat.le_of_lt inside)⟩

/-- The range that covers a position has the polarity of the last range directive up to it. -/
theorem exists_mem_ranges (start : Nat) (enabled : Bool) (directives : List Directive)
    (ordered : directives.Pairwise fun earlier later => earlier.index < later.index)
    (position : Nat) (after : start ≤ position) (before : position < length) :
    ∃ region ∈ ranges length start enabled directives, region.span.Covers position ∧
      region.enabled = (((directives.filter fun directive =>
        !directive.nextLine && directive.index ≤ position).getLast?).map
          Directive.enables).getD enabled := by
  induction directives generalizing start enabled with
  | nil => exact ⟨_, List.mem_singleton_self _, ⟨after, before⟩, rfl⟩
  | cons directive rest inductionHypothesis =>
    obtain ⟨least, restOrdered⟩ := List.pairwise_cons.mp ordered
    rw [ranges]
    cases limited : directive.nextLine with
    | true =>
      rw [if_pos rfl, List.filter_cons_of_neg (by simp [limited])]
      exact inductionHypothesis start enabled restOrdered after
    | false =>
      rw [if_neg Bool.false_ne_true]
      by_cases reached : directive.index ≤ position
      · obtain ⟨region, member, covers, polarity⟩ :=
          inductionHypothesis directive.index directive.enables restOrdered reached
        refine ⟨region, List.mem_cons_of_mem _ member, covers, ?_⟩
        rw [List.filter_cons_of_pos (by simp [limited, reached]), List.getLast?_cons, polarity,
          Option.map_some, Option.getD_some, Option.getD_map]
      -- All later directives stand beyond the position too.
      · have noneReached : (directive :: rest).filter (fun directive =>
            !directive.nextLine && directive.index ≤ position) = [] := by
          rw [List.filter_eq_nil_iff]
          intro other member
          rcases List.mem_cons.mp member with rfl | later
          · simp [reached]
          · have beyond := least other later
            simp only [Bool.and_eq_true, decide_eq_true_eq, not_and]
            omega
        rw [noneReached]
        exact ⟨_, List.mem_cons_self, ⟨after, Nat.lt_of_not_le reached⟩, rfl⟩

end Ranges

/-! ### The governed lines, one after the other -/

theorem lastOfEach_ne_nil (region : Region) (rest : List Region) :
    lastOfEach (region :: rest) ≠ [] := by
  induction rest generalizing region with
  | nil => exact List.cons_ne_nil _ _
  | cons next later inductionHypothesis =>
    rw [lastOfEach]
    split
    · exact inductionHypothesis next
    · exact List.cons_ne_nil _ _

theorem putOverride_cons (region target : Region) (rest : List Region) (nonempty : rest ≠ []) :
    putOverride (region :: rest) target = region :: putOverride rest target := by
  obtain ⟨next, later, rfl⟩ := List.exists_cons_of_ne_nil nonempty
  rw [putOverride, putOverride, List.getLast?_cons_cons, List.dropLast_cons_cons]
  cases (next :: later).getLast? with
  | none => rfl
  | some last =>
    dsimp only
    split <;> rfl

/-- One more region takes the place of the last if they begin at one place. -/
theorem lastOfEach_append (regions : List Region) (target : Region) :
    lastOfEach (regions ++ [target]) = putOverride (lastOfEach regions) target := by
  fun_induction lastOfEach regions with
  | case1 => rfl
  | case2 region => rfl
  | case3 region next rest same inductionHypothesis =>
    rw [List.cons_append, List.cons_append, lastOfEach, if_pos same]
    exact inductionHypothesis
  | case4 region next rest different inductionHypothesis =>
    rw [List.cons_append, List.cons_append, lastOfEach, if_neg different,
      putOverride_cons _ _ _ (lastOfEach_ne_nil next rest)]
    exact congrArg _ inductionHypothesis

/-! ### What is collected -/

/-- The directives are taken one after the other: the ranges grow by the stretches between the range
directives, and the overrides are the last of each target so far. -/
theorem exists_foldlM_take (lines : Lines) (directives : List Directive)
    (looksUp : ∀ directive ∈ directives, ∃ number, lines.lineAt directive.index = .ok number)
    (state : Collector) (targeted : List Region)
    (overrides : state.overrides = lastOfEach targeted) :
    ∃ final, directives.foldlM (Collector.take lines) state = .ok final ∧
      final.ranges ++ [⟨⟨final.start, lines.content.length⟩, final.enabled⟩] =
        state.ranges ++ ranges lines.content.length state.start state.enabled directives ∧
      final.overrides = lastOfEach (targeted ++ targets lines directives) := by
  induction directives generalizing state targeted with
  | nil => exact ⟨state, rfl, rfl, by rw [overrides, targets, List.filterMap_nil, List.append_nil]⟩
  | cons directive rest inductionHypothesis =>
    obtain ⟨⟨number, looked⟩, restLooksUp⟩ := List.forall_mem_cons.mp looksUp
    rw [List.foldlM_cons, Collector.take, ranges, targets]
    cases limited : directive.nextLine with
    | false =>
      rw [if_neg Bool.false_ne_true, if_neg Bool.false_ne_true, List.filterMap_cons_none (by
        rw [target?, Directive.governed?, limited]; rfl)]
      obtain ⟨final, taken, grown, overridden⟩ := inductionHypothesis restLooksUp
        ⟨directive.index, directive.enables,
          state.ranges ++ [⟨⟨state.start, directive.index⟩, state.enabled⟩], state.overrides⟩
        targeted overrides
      exact ⟨final, taken, by rw [grown, List.append_assoc]; rfl, overridden⟩
    | true =>
      have governed : directive.governed? lines = lines.all[number + 1]? := by
        rw [Directive.governed?, limited, looked]
        rfl
      rw [if_pos rfl, if_pos rfl, looked]
      dsimp only [bind, Except.bind]
      cases next : lines.all[number + 1]? with
      | none =>
        rw [List.filterMap_cons_none (by rw [target?, governed, next]; rfl)]
        exact inductionHypothesis restLooksUp state targeted overrides
      | some line =>
        rw [List.filterMap_cons_some (b := ⟨line.span, directive.enables⟩) (by
          rw [target?, governed, next]; rfl), List.append_cons]
        refine inductionHypothesis restLooksUp { state with
          overrides := putOverride state.overrides ⟨line.span, directive.enables⟩ } _ ?_
        rw [lastOfEach_append, overrides]

/-! ### Ranges without the empty ones -/

/-- Without its empty regions a tiling is still one. -/
theorem Tile.filter_proper {start stop : Nat} {regions : List Region}
    (tile : Tile start stop regions) :
    Tile start stop (regions.filter fun region => region.span.start < region.span.stop) := by
  induction regions generalizing start with
  | nil => exact tile
  | cons region rest inductionHypothesis =>
    obtain ⟨begins, forward, restTile⟩ := tile
    by_cases proper : region.span.start < region.span.stop
    · rw [List.filter_cons_of_pos (by simpa using proper)]
      exact ⟨begins, forward, inductionHypothesis restTile⟩
    · rw [List.filter_cons_of_neg (by simpa using proper)]
      have same : start = region.span.stop := by omega
      rw [same]
      exact inductionHypothesis restTile

/-- Empty regions have no part in a window. -/
theorem window_filter_proper (regions : List Region) (start stop : Nat) :
    window (regions.filter fun region => region.span.start < region.span.stop) start stop =
      window regions start stop := by
  rw [window, List.filterMap_filter]
  refine List.filterMap_congr fun region _ => ?_
  by_cases proper : region.span.start < region.span.stop
  · rw [if_pos (decide_eq_true proper)]
  · rw [if_neg (by simpa using proper)]
    dsimp only
    rw [if_neg (by omega)]

theorem weave_filter_proper (regions : List Region) (length start : Nat) (lines : List Region) :
    weave (regions.filter fun region => region.span.start < region.span.stop) length start lines =
      weave regions length start lines := by
  induction lines generalizing start with
  | nil => exact window_filter_proper regions start length
  | cons line rest inductionHypothesis =>
    rw [weave, weave, window_filter_proper, inductionHypothesis]

/-! ### The regions of a text -/

variable (content check : Text)

/-- The ranges of a text for a check tile it. -/
theorem ranges_find_tile :
    Tile 0 content.length (ranges content.length 0 true (Directive.find content check)) :=
  ranges_tile content.length 0 true _ (Directive.find_pairwise content check)
    (fun _ _ => Nat.zero_le _) (Directive.index_lt_of_mem_find content check) (Nat.zero_le _)

/-- From a text that is not empty its proper ranges and its overrides are collected. -/
theorem collect_ofText (nonempty : content ≠ []) :
    collect (Lines.ofText content) (Directive.find content check) =
      .ok ((ranges content.length 0 true (Directive.find content check)).filter
          fun range => range.span.start < range.span.stop,
        lastOfEach (targets (Lines.ofText content) (Directive.find content check))) := by
  obtain ⟨final, taken, grown, overridden⟩ := exists_foldlM_take (Lines.ofText content)
    (Directive.find content check)
    (fun directive member => by
      obtain ⟨number, _, _, _, looked⟩ :=
        Directive.exists_lineAt_eq_ok content check directive member
      exact ⟨number, looked⟩)
    ⟨0, true, [], []⟩ [] rfl
  rw [Lines.content_ofText, List.nil_append] at grown
  rw [collect, taken]
  dsimp only [bind, Except.bind]
  rw [Lines.content_ofText, grown, overridden, List.nil_append]
  split
  case h_1 none =>
    have tile := (ranges_find_tile content check).filter_proper
    rw [none] at tile
    exact absurd (List.length_eq_zero_iff.mp (Eq.symm tile)) nonempty
  case h_2 => rfl

/-- The look-up of regions does not fail. The empty text has one region, which is enabled; any other
has its ranges, with the governed lines woven in. -/
theorem boundaries_ofText :
    boundaries (Lines.ofText content) check = .ok (if content = [] then [⟨⟨0, 0⟩, true⟩] else
      weave (ranges content.length 0 true (Directive.find content check)) content.length 0
        (lastOfEach (targets (Lines.ofText content) (Directive.find content check)))) := by
  split
  case isTrue empty =>
    subst empty
    rfl
  case isFalse nonempty =>
    rw [boundaries, Lines.content_ofText, collect_ofText content check nonempty]
    refine (override_eq_weave (ranges_find_tile content check).filter_proper
      (row_lastOfEach_targets content check) (List.length_pos_iff.mpr nonempty)).trans ?_
    rw [weave_filter_proper]

end SourceLint.Region
