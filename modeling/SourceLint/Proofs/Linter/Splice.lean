/-
This file proves that a fix is what putting in its replacements one at a time gives, from the last
to the first, so that each span still means the place it was given for. The one pass from the left
copies the units between the spans and nothing else, so the units that no span covers come out once
and in their order, with the new texts between them.
-/
import Mathlib.Data.List.Nodup
import SourceLint.Proofs.Linter.Overlap

namespace SourceLint

/-- The text with the new text of a replacement in the place of its span. -/
def Replacement.putInto (replacement : Replacement) (content : Text) : Text :=
  content.take replacement.span.start ++ replacement.newText ++ content.drop replacement.span.stop

/-- The units of a text, the first one at a position, that the spans of no replacement cover. -/
def Replacement.untouched (replacements : List Replacement) (position : Nat) (text : Text) : Text :=
  ((text.zipIdx position).filter fun entry =>
    replacements.all fun replacement => !decide (replacement.span.Covers entry.2)).map Prod.fst

/-! ### Stretches with parts between them -/

/-- Stretches with parts between them: one part behind each stretch but the last. -/
def alternate {Unit : Type} (stretches parts : List (List Unit)) : List Unit :=
  (List.zipWith (· ++ ·) stretches (parts ++ [[]])).flatten

section alternate

variable {Unit : Type} (stretch part : List Unit) (stretches parts : List (List Unit))

theorem alternate_last : alternate (stretch :: stretches) [] = stretch := by simp [alternate]

theorem alternate_cons :
    alternate (stretch :: stretches) (part :: parts) =
      stretch ++ part ++ alternate stretches parts := rfl

end alternate

/-! ### Slices -/

namespace Text

theorem slice_append_drop (text : Text) (start stop : Nat) (forward : start ≤ stop) :
    text.slice start stop ++ text.drop stop = text.drop start := by
  have behind : text.drop stop = (text.drop start).drop (stop - start) := by
    rw [List.drop_drop, Nat.add_sub_cancel' forward]
  rw [slice, behind, List.take_append_drop]

theorem take_append_slice (text : Text) (start stop : Nat) (forward : start ≤ stop) :
    text.take start ++ text.slice start stop = text.take stop := by
  rw [slice, ← List.take_add, Nat.add_sub_cancel' forward]

theorem slice_append (above text below : Text) :
    slice (above ++ (text ++ below)) above.length (above.length + text.length) = text := by
  rw [slice, List.drop_left, Nat.add_sub_cancel_left, List.take_left]

theorem slice_self (text : Text) (position : Nat) : text.slice position position = [] := by
  rw [slice, Nat.sub_self, List.take_zero]

theorem slice_append_slice (text : Text) {start middle stop : Nat} (first : start ≤ middle)
    (second : middle ≤ stop) :
    text.slice start middle ++ text.slice middle stop = text.slice start stop := by
  have taken : (text.drop start).drop (middle - start) = text.drop middle := by
    rw [List.drop_drop, Nat.add_sub_cancel' first]
  have width : stop - start = (middle - start) + (stop - middle) := by omega
  rw [slice, slice, slice, width, List.take_add, taken]

/-- What comes after a part has no influence on what is in it. -/
theorem slice_take (text : Text) (start stop length : Nat) (inside : stop ≤ length) :
    slice (text.take length) start stop = text.slice start stop := by
  rw [slice, slice, List.drop_take, List.take_take, Nat.min_eq_left (by omega)]

theorem length_slice (text : Text) (start stop : Nat) (inside : stop ≤ text.length) :
    (text.slice start stop).length = stop - start := by
  rw [slice, List.length_take, List.length_drop]
  omega

end Text

namespace Replacement

/-! ### One at a time, from the last to the first -/

/-- Up to a position that no replacement reaches, putting them in one at a time leaves the text as
it is; behind it the outcome is that of the pass from the left. -/
theorem foldr_putInto (content : Text) (start : Nat) (replacements : List Replacement)
    (row : Span.Row 0 content.length start (replacements.map Replacement.span)) :
    replacements.foldr putInto content =
      content.take start ++ Linter.splice content start replacements := by
  induction replacements generalizing start with
  | nil => exact (List.take_append_drop start content).symm
  | cons replacement rest inductionHypothesis =>
    obtain ⟨before, proper, restRow⟩ := row
    rw [Nat.add_zero] at before
    have taken : (content.take replacement.span.stop).length = replacement.span.stop :=
      List.length_take_of_le restRow.le
    rw [List.foldr_cons, inductionHypothesis _ restRow, putInto, Linter.splice,
      List.take_append_of_le_length (by rw [taken]; exact proper), List.take_take,
      Nat.min_eq_left proper, List.drop_left' taken, ← Text.take_append_slice content _ _ before]
    simp only [List.append_assoc]

/-! ### The units that stay -/

theorem untouched_append (replacements : List Replacement) (position : Nat) (left right : Text) :
    untouched replacements position (left ++ right) =
      untouched replacements position left ++
        untouched replacements (position + left.length) right := by
  rw [untouched, List.zipIdx_append, List.filter_append, List.map_append]
  rfl

/-- A stretch of text that no span reaches stays whole. -/
theorem untouched_eq_self (replacements : List Replacement) (position : Nat) (text : Text)
    (free : ∀ replacement ∈ replacements, ∀ place, position ≤ place →
      place < position + text.length → ¬replacement.span.Covers place) :
    untouched replacements position text = text := by
  have all : (text.zipIdx position).filter (fun entry => replacements.all fun replacement =>
      !decide (replacement.span.Covers entry.2)) = text.zipIdx position := by
    rw [List.filter_eq_self]
    intro entry member
    rw [List.all_eq_true]
    intro replacement inReplacements
    have uncovered := free replacement inReplacements entry.2 (List.le_snd_of_mem_zipIdx member)
      (List.snd_lt_add_of_mem_zipIdx member)
    simpa using uncovered
  rw [untouched, all, List.zipIdx_map_fst]

/-- A stretch of text that lies in one span goes. -/
theorem untouched_eq_nil (replacements : List Replacement) (position : Nat) (text : Text)
    (replacement : Replacement) (member : replacement ∈ replacements)
    (covered : ∀ place, position ≤ place → place < position + text.length →
      replacement.span.Covers place) :
    untouched replacements position text = [] := by
  rw [untouched, List.map_eq_nil_iff, List.filter_eq_nil_iff]
  intro entry inText free
  have uncovered := List.all_eq_true.mp free replacement member
  have covers := covered entry.2 (List.le_snd_of_mem_zipIdx inText)
    (List.snd_lt_add_of_mem_zipIdx inText)
  simp [covers] at uncovered

/-- Behind a span it has no influence. -/
theorem untouched_cons_of_le (replacement : Replacement) (replacements : List Replacement)
    (position : Nat) (text : Text) (past : replacement.span.stop ≤ position) :
    untouched (replacement :: replacements) position text =
      untouched replacements position text := by
  rw [untouched, untouched]
  congr 1
  refine List.filter_congr fun entry member => ?_
  have uncovered : ¬replacement.span.Covers entry.2 := fun covers =>
    absurd covers.2 (Nat.not_lt_of_le (Nat.le_trans past (List.le_snd_of_mem_zipIdx member)))
  rw [List.all_cons, decide_eq_false uncovered, Bool.not_false, Bool.true_and]

/-- The stretches of a text between the spans of replacements, from a position on. -/
def gaps (content : Text) : Nat → List Replacement → List Text
  | position, [] => [content.drop position]
  | position, replacement :: rest =>
    content.slice position replacement.span.start :: gaps content replacement.span.stop rest

theorem length_gaps (content : Text) (position : Nat) (replacements : List Replacement) :
    (gaps content position replacements).length = replacements.length + 1 := by
  induction replacements generalizing position with
  | nil => rfl
  | cons replacement rest inductionHypothesis =>
    rw [gaps, List.length_cons, List.length_cons, inductionHypothesis]

/-- The pass from the left writes the stretches with the new texts between them. -/
theorem splice_eq_flatten (content : Text) (position : Nat) (replacements : List Replacement) :
    Linter.splice content position replacements =
      (List.zipWith (· ++ ·) (gaps content position replacements)
        (replacements.map Replacement.newText ++ [[]])).flatten := by
  induction replacements generalizing position with
  | nil => simp [Linter.splice, gaps]
  | cons replacement rest inductionHypothesis =>
    rw [Linter.splice, gaps, List.map_cons, List.cons_append, List.zipWith_cons_cons,
      List.flatten_cons, inductionHypothesis]

/-- The stretches hold the units that no span covers. -/
theorem flatten_gaps (content : Text) (position : Nat) (replacements : List Replacement)
    (row : Span.Row 0 content.length position (replacements.map Replacement.span)) :
    (gaps content position replacements).flatten =
      untouched replacements position (content.drop position) := by
  induction replacements generalizing position with
  | nil =>
    rw [untouched_eq_self _ _ _ fun _ member => absurd member List.not_mem_nil]
    exact List.append_nil _
  | cons replacement rest inductionHypothesis =>
    obtain ⟨before, proper, restRow⟩ := row
    rw [Nat.add_zero] at before
    have inside := restRow.le
    have beforeLength := Text.length_slice content position replacement.span.start
      (Nat.le_trans proper inside)
    have spanLength := Text.length_slice content replacement.span.start replacement.span.stop inside
    have stays : untouched (replacement :: rest) position
        (content.slice position replacement.span.start) =
          content.slice position replacement.span.start := by
      refine untouched_eq_self _ _ _ fun other member place after early covers => ?_
      have reached := covers.1
      rcases List.mem_cons.mp member with rfl | later
      · omega
      · have beyond := restRow.start_le (List.mem_map_of_mem (f := Replacement.span) later)
        omega
    have goes : untouched (replacement :: rest) (position +
        (content.slice position replacement.span.start).length)
        (content.slice replacement.span.start replacement.span.stop) = [] := by
      refine untouched_eq_nil _ _ _ replacement List.mem_cons_self fun place after early => ?_
      exact ⟨by omega, by omega⟩
    rw [← Text.slice_append_drop content _ _ before, ← Text.slice_append_drop content _ _ proper,
      untouched_append, untouched_append, stays, goes, List.nil_append,
      untouched_cons_of_le _ _ _ _ (by omega), gaps, List.flatten_cons,
      inductionHypothesis _ restRow]
    congr 2
    omega

end Replacement

/-! ### The pass in parts -/

namespace Linter

/-- Nothing changes up to the first span. -/
theorem splice_of_le (content : Text) (start middle : Nat) (replacements : List Replacement)
    (forward : start ≤ middle)
    (beyond : ∀ replacement ∈ replacements.head?, middle ≤ replacement.span.start) :
    splice content start replacements =
      content.slice start middle ++ splice content middle replacements := by
  cases replacements with
  | nil =>
    rw [splice, splice, Text.slice_append_drop content start middle forward]
  | cons replacement rest =>
    have behind := beyond replacement (Option.mem_some_self replacement)
    rw [splice, splice, ← Text.slice_append_slice content forward behind]
    simp only [List.append_assoc]

/-- The pass over replacements of which some lie before a position and the others behind it. -/
theorem splice_append (content : Text) (start middle : Nat) (left right : List Replacement)
    (row : Span.Row 0 middle start (left.map Replacement.span))
    (beyond : ∀ replacement ∈ right.head?, middle ≤ replacement.span.start) :
    splice content start (left ++ right) =
      splice (content.take middle) start left ++ splice content middle right := by
  induction left generalizing start with
  | nil =>
    rw [List.nil_append, splice, splice_of_le content start middle right row beyond, List.drop_take]
    rfl
  | cons replacement rest inductionHypothesis =>
    obtain ⟨before, proper, restRow⟩ := row
    have inside := restRow.le
    rw [List.cons_append, splice, splice, inductionHypothesis _ restRow,
      Text.slice_take _ _ _ _ (Nat.le_trans proper inside)]
    simp only [List.append_assoc]

theorem row_append {start middle length : Nat} {left right : List Replacement}
    (leftRow : Span.Row 0 middle start (left.map Replacement.span))
    (rightRow : Span.Row 0 length middle (right.map Replacement.span)) :
    Span.Row 0 length start ((left ++ right).map Replacement.span) := by
  rw [List.map_append]
  exact leftRow.append rightRow

theorem splice_append_of_row (content : Text) (start middle : Nat) (left right : List Replacement)
    (leftRow : Span.Row 0 middle start (left.map Replacement.span))
    (rightRow : Span.Row 0 content.length middle (right.map Replacement.span)) :
    splice content start (left ++ right) =
      splice (content.take middle) start left ++ splice content middle right :=
  splice_append content start middle left right leftRow fun _ isFirst =>
    rightRow.start_le (List.mem_map_of_mem (List.mem_of_head? isFirst))

/-- Replacements that put back what was there can be left out. -/
theorem splice_filter (content : Text) (start : Nat) (replacements : List Replacement)
    (row : Span.Row 0 content.length start (replacements.map Replacement.span))
    (changes : Replacement → Bool)
    (same : ∀ replacement ∈ replacements, changes replacement = false →
      replacement.newText = replacement.span.text content) :
    splice content start (replacements.filter changes) = splice content start replacements := by
  induction replacements generalizing start with
  | nil => rfl
  | cons replacement rest inductionHypothesis =>
    obtain ⟨before, proper, restRow⟩ := row
    rw [Nat.add_zero] at before
    obtain ⟨own, restSame⟩ := List.forall_mem_cons.mp same
    have others := inductionHypothesis _ restRow restSame
    cases isChange : changes replacement with
    | true =>
      rw [List.filter_cons_of_pos isChange, splice, splice, others]
    | false =>
      have beyond : ∀ later ∈ (rest.filter changes).head?,
          replacement.span.stop ≤ later.span.start := by
        intro later isFirst
        have member := (List.mem_filter.mp (List.mem_of_head? isFirst)).1
        exact restRow.start_le (List.mem_map_of_mem (f := Replacement.span) member)
      have first : ∀ later ∈ (rest.filter changes).head?,
          replacement.span.start ≤ later.span.start :=
        fun later isFirst => Nat.le_trans proper (beyond later isFirst)
      rw [List.filter_cons_of_neg (by rw [isChange]; decide), splice, own isChange, ← others,
        splice_of_le content start replacement.span.start _ before first,
        splice_of_le content replacement.span.start replacement.span.stop _ proper beyond,
        Span.text]
      simp only [List.append_assoc]

/-- What begins with a stretch that no span reaches begins as it did. -/
theorem head?_splice (content : Text) (start : Nat) (replacements : List Replacement)
    (inside : start < content.length)
    (beyond : ∀ replacement ∈ replacements.head?, start < replacement.span.start) :
    (splice content start replacements).head? = (content.drop start).head? := by
  cases replacements with
  | nil => rfl
  | cons replacement rest =>
    have behind := beyond replacement (Option.mem_some_self replacement)
    obtain ⟨unit, others, whole⟩ := List.exists_cons_of_ne_nil
      (fun empty => absurd (List.drop_eq_nil_iff.mp empty) (Nat.not_le_of_lt inside) :
        content.drop start ≠ [])
    obtain ⟨width, isWidth⟩ := Nat.exists_eq_succ_of_ne_zero (Nat.sub_ne_zero_of_lt behind)
    rw [splice, Text.slice, whole, isWidth, List.take_succ_cons]
    rfl

end Linter

/-! ### The fix -/

namespace Linter

/-- A fix that returns is the content with the replacements that count put in one at a time, from
the last to the first, where they are ordered by their spans and, for equal spans, as they were
given. The units that no span covers come out once and in order, with the new texts between them. -/
theorem fix_eq_putInto_from_last (linter : Linter)
    (inside : ∀ replacement ∈ linter.proposed, replacement.span.start ≤ replacement.span.stop ∧
      replacement.span.stop ≤ linter.source.content.length)
    (fixed : Text) (returns : linter.fix = .ok fixed) :
    Replacement.StableOrder linter.proposed linter.replacements ∧
      fixed = linter.replacements.foldr Replacement.putInto linter.source.content ∧
      ∃ stretches : List Text,
        stretches.flatten = Replacement.untouched linter.replacements 0 linter.source.content ∧
        stretches.length = linter.replacements.length + 1 ∧
        fixed = (List.zipWith (· ++ ·) stretches
          (linter.replacements.map Replacement.newText ++ [[]])).flatten := by
  have sorting := linter.replacements_stableOrder
  obtain ⟨clean, rfl⟩ := (linter.fix_eq_ok_iff fixed).mp returns
  have bounds (replacement : Replacement) (member : replacement ∈ linter.replacements) :=
    inside replacement (sorting.perm.subset member)
  have apart := pairwise_of_firstClash_eq_none _
    (fun replacement member => (bounds replacement member).1) clean
  have row : Span.Row 0 linter.source.content.length 0
      (linter.replacements.map Replacement.span) := by
    refine Span.row_of_pairwise 0 _ (Nat.zero_le _) (List.pairwise_map.mpr apart) ?_
    intro span member
    obtain ⟨replacement, counts, rfl⟩ := List.mem_map.mp member
    exact ⟨Nat.zero_le _, bounds replacement counts⟩
  refine ⟨sorting, ?_, Replacement.gaps linter.source.content 0 linter.replacements, ?_,
    Replacement.length_gaps _ _ _, Replacement.splice_eq_flatten _ _ _⟩
  · rw [Replacement.foldr_putInto _ 0 _ row, List.take_zero, List.nil_append]
  · rw [Replacement.flatten_gaps _ 0 _ row, List.drop_zero]

/-- Replacements of which each ends before the next begins do not clash. -/
theorem firstClash_eq_none {replacements : List Replacement}
    (apart : replacements.Pairwise fun earlier later => earlier.span.stop ≤ later.span.start) :
    firstClash replacements = none := by
  cases clash : firstClash replacements with
  | none => rfl
  | some pair =>
    obtain ⟨among, inside⟩ := firstClash_eq_some _ _ _ clash
    have before := List.pairwise_pair.mp (apart.sublist among)
    omega

/-- The fix of warnings that all count puts in a row of what they replace, if no span is in it
twice. -/
theorem fix_eq_splice (source : Source) (warnings : List Warning)
    (enabled : ∀ warning ∈ warnings, source.isEnabled warning = true) (sorted : List Replacement)
    (perm : sorted.Perm (warnings.flatMap Warning.replacements))
    (row : Span.Row 0 source.content.length 0 (sorted.map Replacement.span))
    (nodup : (sorted.map Replacement.span).Nodup) :
    (⟨source, warnings⟩ : Linter).fix = .ok (splice source.content 0 sorted) := by
  let linter : Linter := ⟨source, warnings⟩
  have apart : sorted.Pairwise fun earlier later => earlier.span.stop ≤ later.span.start :=
    List.pairwise_map.mp row.pairwise
  have proper : ∀ replacement ∈ sorted, replacement.span.start ≤ replacement.span.stop :=
    fun replacement member => (row.stop_le (List.mem_map_of_mem member)).1
  have ordered : sorted.Pairwise fun earlier later => earlier.span.notAfter later.span = true := by
    refine apart.imp_of_mem fun {earlier later} isEarlier isLater before => ?_
    have earlierProper := proper earlier isEarlier
    have laterProper := proper later isLater
    rw [Span.notAfter_iff]
    omega
  have given : linter.proposed = warnings.flatMap Warning.replacements := by
    rw [proposed, counted, List.filter_eq_self.mpr enabled]
  have sorting := linter.replacements_stableOrder
  have same : linter.replacements = sorted := by
    have together := sorting.perm.trans (given ▸ perm.symm)
    refine List.Perm.eq_of_pairwise (fun left right isLeft isRight forward backward => ?_)
      sorting.ordered ordered together
    exact List.inj_on_of_nodup_map nodup (together.subset isLeft) isRight
      (Span.eq_of_notAfter _ _ forward backward)
  rw [fix_eq_ok_iff, same]
  exact ⟨firstClash_eq_none apart, rfl⟩

/-- The fix of warnings that all count puts in what they replace, if that is given in a row. -/
theorem fix_eq_splice_of_row (source : Source) (warnings : List Warning)
    (enabled : ∀ warning ∈ warnings, source.isEnabled warning = true)
    (row : Span.Row 0 source.content.length 0
      ((warnings.flatMap Warning.replacements).map Replacement.span)) :
    (⟨source, warnings⟩ : Linter).fix =
      .ok (splice source.content 0 (warnings.flatMap Warning.replacements)) := by
  let linter : Linter := ⟨source, warnings⟩
  have given : linter.proposed = warnings.flatMap Warning.replacements := by
    rw [proposed, counted, List.filter_eq_self.mpr enabled]
  rw [← given] at row ⊢
  have apart : linter.proposed.Pairwise fun earlier later =>
      earlier.span.stop ≤ later.span.start := List.pairwise_map.mp row.pairwise
  have proper : ∀ replacement ∈ linter.proposed, replacement.span.start ≤ replacement.span.stop :=
    fun replacement member => (row.stop_le (List.mem_map_of_mem member)).1
  have same : linter.replacements = linter.proposed := by
    refine linter.replacements_eq_proposed (apart.imp_of_mem fun {earlier later} isEarlier isLater
      before => ?_)
    have earlierProper := proper earlier isEarlier
    have laterProper := proper later isLater
    rw [Span.notAfter_iff]
    omega
  exact (linter.fix_eq_ok_iff _).mpr ⟨same ▸ firstClash_eq_none apart, by rw [same]⟩

/-- A text with replacements that touch: an insertion before a deletion, and one behind a change,
given from the last to the first. -/
def touching : Linter :=
  ⟨Source.ofText "notes.txt" "abcdef" "check",
    [⟨⟨2, 4⟩, "later", [⟨⟨4, 4⟩, "Y"⟩, ⟨⟨2, 4⟩, "X"⟩], []⟩,
      ⟨⟨0, 1⟩, "earlier", [⟨⟨0, 1⟩, ""⟩, ⟨⟨0, 0⟩, "Z"⟩], []⟩]⟩

theorem fix_touching :
    (∀ replacement ∈ touching.proposed, replacement.span.start ≤ replacement.span.stop ∧
      replacement.span.stop ≤ touching.source.content.length) ∧
      touching.fix = .ok "ZbXYef" ∧
      touching.replacements.foldr Replacement.putInto "abcdef" = "ZbXYef" := by
  have given : touching.proposed =
      [⟨⟨4, 4⟩, "Y"⟩, ⟨⟨2, 4⟩, "X"⟩, ⟨⟨0, 1⟩, ""⟩, ⟨⟨0, 0⟩, "Z"⟩] := by decide +kernel
  have sorted : touching.replacements =
      [⟨⟨0, 0⟩, "Z"⟩, ⟨⟨0, 1⟩, ""⟩, ⟨⟨2, 4⟩, "X"⟩, ⟨⟨4, 4⟩, "Y"⟩] := by
    -- No two of them have one span, so there is only one order.
    have distinct : ∀ left ∈ touching.proposed, ∀ right ∈ touching.proposed,
        left.span = right.span → left = right := by
      rw [given]
      decide
    have sorting := touching.replacements_stableOrder
    have same : touching.proposed.Perm
        [⟨⟨0, 0⟩, "Z"⟩, ⟨⟨0, 1⟩, ""⟩, ⟨⟨2, 4⟩, "X"⟩, ⟨⟨4, 4⟩, "Y"⟩] := by
      rw [given]
      decide
    refine (sorting.perm.trans same).eq_of_pairwise ?_ sorting.ordered (by decide)
    intro left right leftMember rightMember forward backward
    exact distinct left (sorting.perm.subset leftMember) right (same.symm.subset rightMember)
      (Span.eq_of_notAfter _ _ forward backward)
  have inside : ∀ replacement ∈ touching.proposed,
      replacement.span.start ≤ replacement.span.stop ∧
        replacement.span.stop ≤ touching.source.content.length := by
    rw [given]
    decide +kernel
  have returns : touching.fix = .ok "ZbXYef" := by
    rw [fix_eq_ok_iff, sorted]
    decide +kernel
  exact ⟨inside, returns, (fix_eq_putInto_from_last touching inside _ returns).2.1.symm⟩

end Linter

end SourceLint
