/-
This file counts the ways in which the lines of a text end. In a text whose carriage returns all
have a line feed behind them a line ends with both units or with a line feed alone; a part between
two places that are not within a line ending is such a text, too, and so is what replacements make
of it, unless they bring in carriage returns.
-/
import Mathlib
import SourceLint.Proofs.Lines.Around
import SourceLint.Proofs.Linter.Placed
import SourceLint.Proofs.Linter.Splice

namespace SourceLint

/-- A text each of whose carriage returns has a line feed behind it, with the number of line feeds
that have no carriage return before them. -/
inductive Feeds : Text → Nat → Prop
  | nil : Feeds [] 0
  | unit {unit : CodeUnit} {rest : Text} {count : Nat} (notFeed : unit ≠ 0x0A)
      (notReturn : unit ≠ 0x0D) (more : Feeds rest count) : Feeds (unit :: rest) count
  | pair {rest : Text} {count : Nat} (more : Feeds rest count) :
      Feeds ((0x0D : CodeUnit) :: (0x0A : CodeUnit) :: rest) count
  | feed {rest : Text} {count : Nat} (more : Feeds rest count) :
      Feeds ((0x0A : CodeUnit) :: rest) (count + 1)

/-- A text whose lines all end with a carriage return and a line feed. -/
def Text.OnlyPairs (text : Text) : Prop :=
  ∀ line ∈ (Lines.ofText text).all, line.ending = none ∨ line.ending = some .crlf

instance (text : Text) : Decidable text.OnlyPairs := List.decidableBAll _ _

theorem physicalLines_feed (rest : Text) :
    physicalLines ((0x0A : CodeUnit) :: rest) = ([], some .lf) :: physicalLines rest := by
  obtain ⟨⟨line, ending⟩, more, parts⟩ := List.exists_cons_of_ne_nil (physicalLines_ne_nil rest)
  rw [physicalLines_cons, parts, prependUnit, if_pos rfl]

namespace Feeds

variable {text other : Text} {count more : Nat}

theorem append (feeds : Feeds text count) (others : Feeds other more) :
    Feeds (text ++ other) (count + more) := by
  induction feeds with
  | nil => exact (Nat.zero_add more).symm ▸ others
  | unit notFeed notReturn _ inductionHypothesis => exact .unit notFeed notReturn inductionHypothesis
  | pair _ inductionHypothesis => exact .pair inductionHypothesis
  | feed _ inductionHypothesis => exact Nat.add_right_comm _ _ _ ▸ .feed inductionHypothesis

theorem of_no_return (noReturn : 0x0D ∉ text) : Feeds text (text.count 0x0A) := by
  induction text with
  | nil => exact .nil
  | cons unit rest inductionHypothesis =>
    obtain ⟨notReturn, others⟩ := not_or.mp fun either => noReturn (List.mem_cons.mpr either)
    by_cases isFeed : unit = 0x0A
    · subst isFeed
      rw [List.count_cons_self]
      exact .feed (inductionHypothesis others)
    · rw [List.count_cons_of_ne isFeed]
      exact .unit isFeed (Ne.symm notReturn) (inductionHypothesis others)

/-- The lines of such a text. -/
theorem count_parts (feeds : Feeds text count) :
    (∀ part ∈ physicalLines text, part.2 ≠ some .cr) ∧
      (physicalLines text).countP (fun part => part.2 = some .lf) = count := by
  induction feeds with
  | nil => exact ⟨by decide, rfl⟩
  | @unit unit rest count notFeed notReturn _ inductionHypothesis =>
    obtain ⟨⟨line, ending⟩, more, parts⟩ :=
      List.exists_cons_of_ne_nil (physicalLines_ne_nil rest)
    rw [physicalLines_cons, parts, prependUnit, if_neg notFeed, if_neg notReturn]
    rw [parts] at inductionHypothesis
    obtain ⟨noReturn, counts⟩ := inductionHypothesis
    obtain ⟨first, others⟩ := List.forall_mem_cons.mp noReturn
    refine ⟨List.forall_mem_cons.mpr ⟨first, others⟩, ?_⟩
    rw [List.countP_cons] at counts ⊢
    exact counts
  | @pair rest count _ inductionHypothesis =>
    have parts : physicalLines ((0x0D : CodeUnit) :: (0x0A : CodeUnit) :: rest) =
        ([], some .crlf) :: physicalLines rest := rfl
    rw [parts]
    refine ⟨List.forall_mem_cons.mpr ⟨by decide, inductionHypothesis.1⟩, ?_⟩
    rw [List.countP_cons_of_neg (by decide), inductionHypothesis.2]
  | @feed rest count _ inductionHypothesis =>
    rw [physicalLines_feed]
    refine ⟨List.forall_mem_cons.mpr ⟨by decide, inductionHypothesis.1⟩, ?_⟩
    rw [List.countP_cons_of_pos (by decide), inductionHypothesis.2]

end Feeds

theorem Lines.count_ofText (text : Text) (newline : Newline) :
    (ofText text).count newline =
      (physicalLines text).countP fun part => part.2 = some newline := by
  have endings := map_ending_placeLines 0 (physicalLines text)
  have counts := congrArg (List.countP fun ending => decide (ending = some newline)) endings
  rw [List.countP_map, List.countP_map] at counts
  exact counts

/-- How many lines of such a text end in each way. -/
theorem Feeds.count_eq {text : Text} {count : Nat} (feeds : Feeds text count) :
    (Lines.ofText text).count .cr = 0 ∧ (Lines.ofText text).count .lf = count := by
  obtain ⟨noReturn, counts⟩ := feeds.count_parts
  refine ⟨?_, by rw [Lines.count_ofText, counts]⟩
  rw [Lines.count_ofText, List.countP_eq_zero]
  exact fun part member => by simpa using noReturn part member

theorem Text.OnlyPairs.parts {text : Text} (onlyPairs : text.OnlyPairs) :
    ∀ part ∈ physicalLines text, part.2 = none ∨ part.2 = some .crlf := by
  intro part member
  have isEnding : part.2 ∈ (placeLines 0 (physicalLines text)).map Line.ending := by
    rw [map_ending_placeLines]
    exact List.mem_map_of_mem member
  obtain ⟨line, isLine, same⟩ := List.mem_map.mp isEnding
  exact same ▸ onlyPairs line isLine

/-- A text whose lines end with both units has no line feed alone. -/
theorem Text.OnlyPairs.feeds {text : Text} (onlyPairs : text.OnlyPairs) : Feeds text 0 := by
  have parts := onlyPairs.parts
  clear onlyPairs
  fun_induction physicalLines text with
  | case1 => exact .nil
  | case2 rest _ => exact absurd (parts _ List.mem_cons_self) (by decide)
  | case3 => exact absurd (parts _ List.mem_cons_self) (by decide)
  | case4 rest _ inductionHypothesis =>
    exact .pair (inductionHypothesis (List.forall_mem_cons.mp parts).2)
  | case5 => exact absurd (parts _ List.mem_cons_self) (by decide)
  | case6 unit rest notFeed notReturn line ending more same inductionHypothesis =>
    refine .unit notFeed notReturn (inductionHypothesis ?_)
    rw [same]
    exact List.forall_mem_cons.mpr (List.forall_mem_cons.mp parts)
  | case7 unit rest notFeed notReturn none => exact absurd none (physicalLines_ne_nil rest)

/-- All lines end with both units if none ends otherwise. -/
theorem Text.onlyPairs_iff (text : Text) : text.OnlyPairs ↔
    (Lines.ofText text).count .cr = 0 ∧ (Lines.ofText text).count .lf = 0 := by
  rw [Lines.count, Lines.count, List.countP_eq_zero, List.countP_eq_zero]
  constructor
  · intro onlyPairs
    constructor <;> intro line isLine <;> rcases onlyPairs line isLine with ends | ends <;>
      simp [ends]
  · rintro ⟨noReturn, noFeed⟩ line isLine
    have notReturn := noReturn line isLine
    have notFeed := noFeed line isLine
    cases ends : line.ending with
    | none => exact Or.inl rfl
    | some newline =>
      rw [ends] at notReturn notFeed
      cases newline with
      | crlf => exact Or.inr rfl
      | lf => exact absurd (decide_eq_true rfl) notFeed
      | cr => exact absurd (decide_eq_true rfl) notReturn

/-! ### Parts, and what replacements make of a text -/

/-- A text without lone line endings is cut into such texts where no line ending is split. -/
theorem Feeds.take_drop {text : Text} (feeds : Feeds text 0) (position : Nat)
    (whole : ¬text.SplitsBreak position) :
    Feeds (text.take position) 0 ∧ Feeds (text.drop position) 0 := by
  generalize zero : 0 = count at feeds
  induction feeds generalizing position with
  | nil => simpa [← zero] using Feeds.nil
  | @unit unit rest count notFeed notReturn more inductionHypothesis =>
    subst zero
    cases position with
    | zero => exact ⟨.nil, .unit notFeed notReturn more⟩
    | succ position =>
      obtain ⟨front, back⟩ := inductionHypothesis position
        (fun splits => whole (splits.cons unit)) rfl
      exact ⟨.unit notFeed notReturn front, back⟩
  | @pair rest count more inductionHypothesis =>
    subst zero
    rcases position with _ | _ | position
    · exact ⟨.nil, .pair more⟩
    · exact absurd ⟨Nat.one_pos, rfl, rfl⟩ whole
    · obtain ⟨front, back⟩ := inductionHypothesis position
        (fun splits => whole ((splits.cons _).cons _)) rfl
      exact ⟨.pair front, back⟩
  | feed => cases zero

/-- A replacement that brings in no carriage return and splits no line ending. -/
structure Replacement.KeepsPairs (content : Text) (replacement : Replacement) : Prop where
  start : ¬content.SplitsBreak replacement.span.start
  stop : ¬content.SplitsBreak replacement.span.stop
  noReturn : 0x0D ∉ replacement.newText

/-- How many line feeds replacements bring in. -/
def Replacement.feeds (replacements : List Replacement) : Nat :=
  (replacements.map fun replacement => replacement.newText.count 0x0A).sum

theorem Replacement.feeds_eq_zero_iff (replacements : List Replacement) :
    feeds replacements = 0 ↔ ∀ replacement ∈ replacements, 0x0A ∉ replacement.newText := by
  induction replacements with
  | nil => exact iff_of_true rfl (List.forall_mem_nil _)
  | cons replacement rest inductionHypothesis =>
    have whole : feeds (replacement :: rest) = replacement.newText.count 0x0A + feeds rest :=
      List.sum_cons
    rw [whole, Nat.add_eq_zero_iff, List.count_eq_zero, inductionHypothesis, List.forall_mem_cons]

theorem Text.SplitsBreak.of_drop {text : Text} {position count : Nat}
    (splits : SplitsBreak (text.drop position) count) : text.SplitsBreak (position + count) := by
  obtain ⟨some, isReturn, isFeed⟩ := splits
  rw [List.getElem?_drop] at isReturn isFeed
  refine ⟨by omega, ?_, isFeed⟩
  rwa [Nat.add_sub_assoc some]

/-- A text whose lines end with both units gets the line feeds that the new texts have. -/
theorem Feeds.splice {content : Text} (feeds : Feeds content 0) {replacements : List Replacement}
    (keepPairs : ∀ replacement ∈ replacements, replacement.KeepsPairs content) (position : Nat)
    (whole : ¬content.SplitsBreak position) :
    Feeds (Linter.splice content position replacements) (Replacement.feeds replacements) := by
  induction replacements generalizing position with
  | nil => exact (feeds.take_drop position whole).2
  | cons replacement rest inductionHypothesis =>
    obtain ⟨own, others⟩ := List.forall_mem_cons.mp keepPairs
    have before : Feeds (content.slice position replacement.span.start) 0 := by
      by_cases forward : position ≤ replacement.span.start
      · refine ((feeds.take_drop position whole).2.take_drop _ fun splits => own.start ?_).1
        exact Nat.add_sub_cancel' forward ▸ splits.of_drop
      · rw [Text.slice, Nat.sub_eq_zero_of_le (by omega), List.take_zero]
        exact .nil
    have whole := (before.append (Feeds.of_no_return own.noReturn)).append
      (inductionHypothesis others replacement.span.stop own.stop)
    rw [Nat.zero_add] at whole
    exact whole

/-- The line endings of a fixed text whose lines ended with both units: they still do, but for the
line feeds that the replacements bring in. -/
theorem Linter.count_fix {source : Source} {warnings : List Warning} {fixed : Text}
    (fixes : (⟨source, warnings⟩ : Linter).fix = .ok fixed)
    (onlyPairs : source.content.OnlyPairs)
    (keepPairs : ∀ warning ∈ warnings, ∀ replacement ∈ warning.replacements,
      replacement.KeepsPairs source.content) :
    (Lines.ofText fixed).count .cr = 0 ∧ (Lines.ofText fixed).count .lf =
      Replacement.feeds (⟨source, warnings⟩ : Linter).proposed := by
  let linter : Linter := ⟨source, warnings⟩
  obtain ⟨-, rfl⟩ := (linter.fix_eq_ok_iff fixed).mp fixes
  have sorting := linter.replacements_stableOrder
  have sameFeeds : Replacement.feeds linter.replacements = Replacement.feeds linter.proposed :=
    (sorting.perm.map _).sum_nat
  refine sameFeeds ▸ (onlyPairs.feeds.splice (fun replacement member => ?_) 0
    (Text.not_splitsBreak_zero _)).count_eq
  obtain ⟨warning, counts, isOwn⟩ := List.mem_flatMap.mp (sorting.perm.subset member)
  exact keepPairs warning (linter.counted_sublist.subset counts) replacement isOwn

end SourceLint
