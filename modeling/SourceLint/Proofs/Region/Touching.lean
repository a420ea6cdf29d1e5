/-
This file proves that whether a span counts can be told from each region by itself. Where neither
the starts nor the stops of regions decrease, those that end before a span come first and those that
start after it come last, so the regions between, which the search by halving finds and the walk
from there passes, are the regions that the span touches. Both tests change with the width of the
span: the regions at the ends of a proper span share no unit with it, but a span of width zero
touches the regions on both sides of it.
-/
import SourceLint.Linter
import SourceLint.Proofs.Region.Layout

namespace SourceLint.Region

/-- A region and a span touch. A span of width zero is touched by what begins or ends at it; a
proper span shares a unit with what touches it, or surrounds it. -/
def Touches (region : Region) (span : Span) : Prop :=
  if span.start = span.stop then
    region.span.start ≤ span.start ∧ span.start ≤ region.span.stop
  else region.span.start < span.stop ∧ span.start < region.span.stop

instance (region : Region) (span : Span) : Decidable (region.Touches span) := by
  unfold Touches
  infer_instance

/-- What neither ends before a span nor starts after it touches it. -/
theorem touches_iff (region : Region) (span : Span) :
    region.Touches span ↔ region.endsBefore span = false ∧ region.startsAfter span = false := by
  unfold Touches endsBefore startsAfter
  split
  case isTrue point =>
    rw [decide_eq_false_iff_not, decide_eq_false_iff_not, ← point]
    omega
  case isFalse =>
    rw [decide_eq_false_iff_not, decide_eq_false_iff_not]
    omega

/-- Neither the starts nor the stops of regions decrease. Some may have width zero, and they may
overlap or leave gaps. -/
structure Ascending (regions : List Region) : Prop where
  starts : regions.Pairwise fun earlier later => earlier.span.start ≤ later.span.start
  stops : regions.Pairwise fun earlier later => earlier.span.stop ≤ later.span.stop

theorem Tile.ascending {start stop : Nat} {regions : List Region} (tile : Tile start stop regions) :
    Ascending regions where
  starts := tile.pairwise.imp_of_mem fun isEarlier _ apart =>
    Nat.le_trans (tile.bounds isEarlier).2.1 apart
  stops := tile.pairwise.imp_of_mem fun _ isLater apart =>
    Nat.le_trans apart (tile.bounds isLater).2.1

/-! ### The two tests along a list -/

variable {regions : List Region} {span : Span}

/-- What stops no later than a region that ends before a span ends before it, too. -/
theorem endsBefore_of_stop_le {earlier later : Region}
    (notLater : earlier.span.stop ≤ later.span.stop) (ends : later.endsBefore span = true) :
    earlier.endsBefore span = true := by
  unfold endsBefore at ends ⊢
  split at ends
  case isTrue point =>
    rw [if_pos point, decide_eq_true_eq]
    exact Nat.lt_of_le_of_lt notLater (of_decide_eq_true ends)
  case isFalse proper =>
    rw [if_neg proper, decide_eq_true_eq]
    exact Nat.le_trans notLater (of_decide_eq_true ends)

/-- What starts no earlier than a region that starts after a span starts after it, too. -/
theorem startsAfter_of_start_le {earlier later : Region}
    (notLater : earlier.span.start ≤ later.span.start) (starts : earlier.startsAfter span = true) :
    later.startsAfter span = true := by
  unfold startsAfter at starts ⊢
  split at starts
  case isTrue point =>
    rw [if_pos point, decide_eq_true_eq]
    exact Nat.lt_of_lt_of_le (of_decide_eq_true starts) notLater
  case isFalse proper =>
    rw [if_neg proper, decide_eq_true_eq]
    exact Nat.le_trans (of_decide_eq_true starts) notLater

/-- Before a region that ends before a span all regions do. -/
theorem Ascending.endsBefore_of_le (ascending : Ascending regions) {index later : Nat}
    (le : index ≤ later) {region other : Region} (here : regions[index]? = some region)
    (there : regions[later]? = some other) (ends : other.endsBefore span = true) :
    region.endsBefore span = true := by
  rcases Nat.eq_or_lt_of_le le with rfl | less
  · cases here.symm.trans there
    exact ends
  · obtain ⟨bound, rfl⟩ := List.getElem?_eq_some_iff.mp there
    obtain ⟨_, rfl⟩ := List.getElem?_eq_some_iff.mp here
    exact endsBefore_of_stop_le
      (List.pairwise_iff_getElem.mp ascending.stops index later _ bound less) ends

/-! ### The search by halving -/

/-- A number divides regions at a span: exactly those before it end before the span. -/
def Divides (regions : List Region) (span : Span) (number : Nat) : Prop :=
  ∀ index region, regions[index]? = some region →
    (region.endsBefore span = true ↔ index < number)

/-- The search keeps what is known of the regions outside its bounds: those below end before the
span, those from the upper bound on do not. When the bounds meet, their place divides the regions.
-/
theorem divides_firstReaching (ascending : Ascending regions) (low high : Nat)
    (forward : low ≤ high) (inside : high ≤ regions.length)
    (below : ∀ index region, regions[index]? = some region → index < low →
      region.endsBefore span = true)
    (above : ∀ index region, regions[index]? = some region → high ≤ index →
      region.endsBefore span = false) :
    Divides regions span (firstReaching regions.toArray span low high) := by
  fun_induction firstReaching regions.toArray span low high with
  | case1 low high less middle region here ends inductionHypothesis =>
    rw [List.getElem?_toArray] at here
    refine inductionHypothesis (by omega) inside (fun index other found before => ?_) above
    exact ascending.endsBefore_of_le (Nat.le_of_lt_succ before) found here ends
  | case2 low high less middle region here reaches inductionHypothesis =>
    rw [List.getElem?_toArray] at here
    refine inductionHypothesis (by omega) (by omega) below fun index other found after => ?_
    refine Bool.eq_false_iff.mpr fun ends => reaches ?_
    exact ascending.endsBefore_of_le after here found ends
  | case3 low high less middle none =>
    rw [List.getElem?_toArray, List.getElem?_eq_none_iff] at none
    omega
  | case4 low high met =>
    intro index region here
    refine ⟨fun ends => ?_, below index region here⟩
    by_contra reached
    have reaches := above index region here (by omega)
    exact absurd ends (Bool.eq_false_iff.mp reaches)

/-! ### The walk from there -/

/-- The walk up to the first region that starts after a span passes all that do not. -/
theorem takeWhile_startsAfter_eq_filter
    (starts : regions.Pairwise fun earlier later => earlier.span.start ≤ later.span.start) :
    (regions.takeWhile fun region => !region.startsAfter span) =
      regions.filter fun region => !region.startsAfter span := by
  induction regions with
  | nil => rfl
  | cons region rest inductionHypothesis =>
    obtain ⟨beyond, restStarts⟩ := List.pairwise_cons.mp starts
    cases after : region.startsAfter span with
    | false =>
      rw [List.takeWhile_cons_of_pos (by rw [after]; rfl),
        List.filter_cons_of_pos (by rw [after]; rfl), inductionHypothesis restStarts]
    | true =>
      have none : (rest.filter fun other => !other.startsAfter span) = [] :=
        List.filter_eq_nil_iff.mpr fun other member => by
          rw [startsAfter_of_start_le (beyond other member) after]
          decide
      rw [List.takeWhile_cons_of_neg (by rw [after]; decide),
        List.filter_cons_of_neg (by rw [after]; decide), none]

/-- The search and the walk pass the regions that a span touches. -/
theorem passed_eq_filter (ascending : Ascending regions) (span : Span) :
    ((regions.drop (firstReaching regions.toArray span 0 regions.length)).takeWhile
        fun region => !region.startsAfter span) =
      regions.filter fun region => region.Touches span := by
  have divides : Divides regions span (firstReaching regions.toArray span 0 regions.length) :=
    divides_firstReaching ascending 0 regions.length (Nat.zero_le _) (Nat.le_refl _)
      (fun _ _ _ before => absurd before (Nat.not_lt_zero _)) fun index region here past => by
        rw [List.getElem?_eq_none past] at here
        cases here
  generalize firstReaching regions.toArray span 0 regions.length = number at divides ⊢
  have before : (regions.take number).filter (fun region => region.Touches span) = [] := by
    refine List.filter_eq_nil_iff.mpr fun region member touches => ?_
    obtain ⟨index, found⟩ := List.mem_iff_getElem?.mp member
    rw [List.getElem?_take, Option.ite_none_right_eq_some] at found
    have ends := (divides index region found.2).mpr found.1
    have reaches := ((touches_iff region span).mp (of_decide_eq_true touches)).1
    exact absurd ends (Bool.eq_false_iff.mp reaches)
  have behind : (regions.drop number).filter (fun region => region.Touches span) =
      (regions.drop number).filter fun region => !region.startsAfter span := by
    refine List.filter_congr fun region member => ?_
    obtain ⟨index, found⟩ := List.mem_iff_getElem?.mp member
    rw [List.getElem?_drop] at found
    have reaches : region.endsBefore span = false := Bool.eq_false_iff.mpr fun ends =>
      absurd ((divides _ region found).mp ends) (by omega)
    rw [Bool.eq_iff_iff, decide_eq_true_eq, touches_iff, Bool.not_eq_true']
    exact and_iff_right reaches
  conv_rhs => rw [← List.take_append_drop number regions, List.filter_append, before, behind]
  rw [takeWhile_startsAfter_eq_filter (ascending.starts.sublist (List.drop_sublist _ _))]
  rfl

theorem isEnabled_eq_any (ascending : Ascending regions) (span : Span) :
    isEnabled regions span =
      (regions.filter fun region => region.Touches span).any Region.enabled := by
  rw [isEnabled, passed_eq_filter ascending]

theorem any_filter_touches_iff (regions : List Region) (span : Span) :
    (regions.filter fun region => region.Touches span).any Region.enabled = true ↔
      ∃ region ∈ regions, region.enabled = true ∧ region.Touches span := by
  rw [List.any_eq_true]
  simp only [List.mem_filter, decide_eq_true_eq]
  exact exists_congr fun region => by rw [and_assoc, and_comm (a := region.Touches span)]

/-- Where one region covers a whole text and is enabled, each span of the text counts. -/
theorem isEnabled_whole (length : Nat) (span : Span) (forward : span.start ≤ span.stop)
    (inside : span.stop ≤ length) : isEnabled [⟨⟨0, length⟩, true⟩] span = true := by
  have whole : Tile 0 length [⟨⟨0, length⟩, true⟩] := ⟨rfl, Nat.zero_le _, rfl⟩
  rw [isEnabled_eq_any whole.ascending, any_filter_touches_iff]
  refine ⟨_, List.mem_singleton_self _, rfl, ?_⟩
  unfold Touches
  dsimp only
  split <;> omega

/-- A warning on a text counts exactly if it touches a region of the text that is enabled. -/
theorem isEnabled_ofText_iff (filename content check : Text) (warning : Warning) :
    (Source.ofText filename content check).isEnabled warning = true ↔
      ∃ region ∈ ofLines (Lines.ofText content) check,
        region.enabled = true ∧ region.Touches warning.span := by
  rw [← any_filter_touches_iff, ← isEnabled_eq_any (ofLines_tile content check).ascending]
  rfl

/-- A span counts in ascending regions exactly if one of those that it touches is enabled: the
search by halving, and the walk that stops early, miss none and add none. -/
theorem isEnabled_iff_touches (regions : List Region) (ascending : Ascending regions)
    (span : Span) :
    isEnabled regions span = true ↔
      ∃ region ∈ regions, region.enabled = true ∧ region.Touches span := by
  rw [isEnabled_eq_any ascending, any_filter_touches_iff]

/-- An empty line is enabled in the midst of a stretch that is not. -/
def enabledPoint : List Region := [⟨⟨0, 2⟩, false⟩, ⟨⟨2, 2⟩, true⟩, ⟨⟨2, 5⟩, false⟩]

/-- A place of width zero on the line counts, and so does what surrounds it; what begins there does
not. -/
theorem isEnabled_enabledPoint :
    Ascending enabledPoint ∧ isEnabled enabledPoint ⟨2, 2⟩ = true ∧
      isEnabled enabledPoint ⟨1, 3⟩ = true ∧ isEnabled enabledPoint ⟨2, 3⟩ = false := by
  have ascending : Ascending enabledPoint := ⟨by decide, by decide⟩
  have touched (span : Span) := isEnabled_iff_touches enabledPoint ascending span
  refine ⟨ascending, (touched _).mpr (by decide), (touched _).mpr (by decide), ?_⟩
  exact Bool.eq_false_iff.mpr fun counts => absurd ((touched _).mp counts) (by decide)

end SourceLint.Region
