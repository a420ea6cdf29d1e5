/-
This file says how the lines of a text come from its parts. The lines of one text behind another are
what the units of the first make of the lines of the second, one unit after another, and each unit
changes the first line only. So a stretch of text without a line ending, that begins where a line
begins and ends where one ends, is one of the lines, and what stands above it does not depend on it.
-/
import Mathlib.Data.List.Basic
import Mathlib.Data.List.Induction
import SourceLint.Proofs.Lines.Lookup
import SourceLint.Proofs.Text.Cut

namespace SourceLint

/-! ### One unit more -/

/-- The parts of a text with one more unit at its start. -/
def prependUnit (unit : CodeUnit) : List (Text × Option Newline) → List (Text × Option Newline)
  | [] => [([unit], none)]
  | (text, ending) :: more =>
    if unit = 0x0A then ([], some .lf) :: (text, ending) :: more
    else if unit = 0x0D then
      if text = [] ∧ ending = some .lf then ([], some .crlf) :: more
      else ([], some .cr) :: (text, ending) :: more
    else (unit :: text, ending) :: more

/-- The first part of a text is empty and ends with a line feed only if the text begins with one. -/
theorem head?_physicalLines_ne (unit : CodeUnit) (text : Text) (notFeed : unit ≠ 0x0A) :
    (physicalLines (unit :: text)).head? ≠ some ([], some .lf) := by
  generalize whole_eq : unit :: text = whole
  fun_cases physicalLines whole <;> simp_all

theorem physicalLines_cons (unit : CodeUnit) (text : Text) :
    physicalLines (unit :: text) = prependUnit unit (physicalLines text) := by
  generalize whole_eq : unit :: text = whole
  fun_cases physicalLines whole with
  | case1 => cases whole_eq
  | case2 rest =>
    cases whole_eq
    obtain ⟨⟨first, ending⟩, more, parts⟩ := List.exists_cons_of_ne_nil (physicalLines_ne_nil text)
    rw [parts, prependUnit, if_pos rfl]
  | case3 =>
    cases whole_eq
    rfl
  | case4 rest =>
    cases whole_eq
    rw [physicalLines.eq_def (0x0A :: rest)]
    rfl
  | case5 next rest notFeed =>
    cases whole_eq
    obtain ⟨line, more, parts⟩ :=
      List.exists_cons_of_ne_nil (physicalLines_ne_nil (next :: rest))
    have unlike := head?_physicalLines_ne next rest notFeed
    rw [parts] at unlike
    rw [parts, prependUnit, if_neg (by decide), if_pos rfl, if_neg]
    exact fun same => unlike (congrArg some (Prod.ext same.1 same.2))
  | case6 first rest notFeed notReturn line ending more parts =>
    cases whole_eq
    rw [parts, prependUnit, if_neg notFeed, if_neg notReturn]
  | case7 first rest _ _ parts => exact absurd parts (physicalLines_ne_nil rest)

theorem physicalLines_append (left right : Text) :
    physicalLines (left ++ right) = left.foldr prependUnit (physicalLines right) := by
  induction left with
  | nil => rfl
  | cons unit rest inductionHypothesis =>
    rw [List.cons_append, physicalLines_cons, inductionHypothesis, List.foldr_cons]

/-! ### Texts that begin or end where lines do -/

/-- A text stops where a line begins: it is empty, or its last unit ends a line. -/
def Text.FillsLines (text : Text) : Prop :=
  ∀ unit, text.getLast? = some unit → unit = 0x0A ∨ unit = 0x0D

/-- A text begins where a line stops: it is empty, or its first unit ends a line. -/
def Text.ClosesLine (text : Text) : Prop :=
  ∀ unit, text.head? = some unit → unit = 0x0A ∨ unit = 0x0D

theorem Text.fillsLines_nil : Text.FillsLines [] := by
  rintro unit ⟨⟩

theorem Text.closesLine_nil : Text.ClosesLine [] := by
  rintro unit ⟨⟩

theorem Text.FillsLines.append (left : Text) {right : Text} (fills : FillsLines right)
    (notEmpty : right ≠ []) : FillsLines (left ++ right) := by
  intro unit last
  rw [List.getLast?_append_of_ne_nil _ notEmpty] at last
  exact fills unit last

theorem Text.FillsLines.drop {text : Text} (fills : FillsLines text) (count : Nat) :
    FillsLines (text.drop count) := by
  intro unit last
  refine fills unit ?_
  rw [← List.take_append_drop count text, List.getLast?_append, last, Option.some_or]

/-- Whether a text begins where a line stops is seen from any part it begins with. -/
theorem Text.ClosesLine.of_append {left right other : Text} (closes : ClosesLine (left ++ right))
    (notEmpty : left ≠ []) : ClosesLine (left ++ other) := by
  obtain ⟨unit, rest, rfl⟩ := List.exists_cons_of_ne_nil notEmpty
  exact closes

/-- The ending of the line at whose stop a text begins. -/
def lineEnding (below : Text) : Option Newline := (physicalLines below).head?.bind Prod.snd

/-- The parts of a text after the first one. -/
def partsBelow (below : Text) : List (Text × Option Newline) := (physicalLines below).tail

/-- A text that begins where a line stops has an empty first part. -/
theorem physicalLines_of_closesLine (below : Text) (closes : below.ClosesLine) :
    physicalLines below = ([], lineEnding below) :: partsBelow below := by
  obtain ⟨⟨text, ending⟩, more, parts⟩ :=
    List.exists_cons_of_ne_nil (physicalLines_ne_nil below)
  have first : text = [] := by
    cases below with
    | nil =>
      cases parts
      rfl
    | cons unit rest =>
      obtain ⟨line, others, restParts⟩ :=
        List.exists_cons_of_ne_nil (physicalLines_ne_nil rest)
      rw [physicalLines_cons, restParts, prependUnit] at parts
      rcases closes unit rfl with rfl | rfl
      · cases parts
        rfl
      · rw [if_neg (by decide), if_pos rfl] at parts
        split at parts <;> cases parts <;> rfl
  rw [lineEnding, partsBelow, parts, first]
  rfl

/-- A stretch without a line ending, up to the stop of a line, is the first part. -/
theorem physicalLines_line (text below : Text) (isOneLine : text.OneLine)
    (closes : below.ClosesLine) :
    physicalLines (text ++ below) = (text, lineEnding below) :: partsBelow below := by
  induction text with
  | nil => exact physicalLines_of_closesLine below closes
  | cons unit rest inductionHypothesis =>
    obtain ⟨⟨notFeed, notReturn⟩, restOneLine⟩ := List.forall_mem_cons.mp isOneLine
    rw [List.cons_append, physicalLines_cons, inductionHypothesis restOneLine, prependUnit,
      if_neg notFeed, if_neg notReturn]

/-- The parts of a text that fills lines, without the empty one at the end. -/
def partsAbove (above : Text) : List (Text × Option Newline) := (physicalLines above).dropLast

theorem prependUnit_append (unit : CodeUnit) (parts more : List (Text × Option Newline))
    (notEmpty : parts ≠ []) :
    prependUnit unit (parts ++ more) = prependUnit unit parts ++ more := by
  obtain ⟨⟨text, ending⟩, rest, rfl⟩ := List.exists_cons_of_ne_nil notEmpty
  rw [List.cons_append, prependUnit, prependUnit]
  split
  · rfl
  · split
    · split <;> rfl
    · rfl

theorem prependUnit_ne_nil (unit : CodeUnit) (parts : List (Text × Option Newline)) :
    prependUnit unit parts ≠ [] := by
  fun_cases prependUnit unit parts <;> simp

/-- What a text that fills lines makes of the first line behind it are parts above that line. A line
feed alone could still belong to the ending before it. -/
theorem exists_foldr_prependUnit (above : Text) (fills : above.FillsLines) :
    ∃ parts : List (Text × Option Newline), (above ≠ [] → parts ≠ []) ∧
      ∀ line more, line ≠ ([], some .lf) →
        above.foldr prependUnit (line :: more) = parts ++ line :: more := by
  induction above with
  | nil => exact ⟨[], fun notEmpty => absurd rfl notEmpty, fun _ _ _ => rfl⟩
  | cons unit rest inductionHypothesis =>
    cases rest with
    | nil =>
      rcases fills unit rfl with rfl | rfl
      · exact ⟨[([], some .lf)], fun _ => List.cons_ne_nil _ _, fun _ _ _ => rfl⟩
      · refine ⟨[([], some .cr)], fun _ => List.cons_ne_nil _ _, fun line more unlike => ?_⟩
        rw [List.foldr_cons, List.foldr_nil, prependUnit, if_neg (by decide), if_pos rfl, if_neg]
        · rfl
        · exact fun same => unlike (Prod.ext same.1 same.2)
    | cons next others =>
      have restFills : Text.FillsLines (next :: others) := fun last isLast => fills last isLast
      obtain ⟨parts, notEmpty, behind⟩ := inductionHypothesis restFills
      refine ⟨prependUnit unit parts, fun _ => prependUnit_ne_nil unit parts,
        fun line more unlike => ?_⟩
      rw [List.foldr_cons, behind line more unlike,
        prependUnit_append _ _ _ (notEmpty (List.cons_ne_nil _ _))]

theorem foldr_prependUnit (above : Text) (fills : above.FillsLines)
    (line : Text × Option Newline) (more : List (Text × Option Newline))
    (unlike : line ≠ ([], some .lf)) :
    above.foldr prependUnit (line :: more) = partsAbove above ++ line :: more := by
  obtain ⟨parts, _, behind⟩ := exists_foldr_prependUnit above fills
  have own : physicalLines above = parts ++ [([], none)] := by
    rw [← behind _ _ (by decide), ← above.append_nil, physicalLines_append, List.append_nil]
    rfl
  rw [behind line more unlike, partsAbove, own, List.dropLast_concat]

theorem partsAbove_ne_nil (above : Text) (fills : above.FillsLines) (notEmpty : above ≠ []) :
    partsAbove above ≠ [] := by
  obtain ⟨parts, partsNotEmpty, behind⟩ := exists_foldr_prependUnit above fills
  have same := foldr_prependUnit above fills ([], none) [] (by decide)
  rw [behind _ _ (by decide)] at same
  exact List.append_cancel_right same ▸ partsNotEmpty notEmpty

/-! ### A line and its surroundings -/

/-- The units of the line ending that a text begins with. -/
def lineBreak (below : Text) : Text := ((lineEnding below).map Newline.text).getD []

theorem Text.ClosesLine.eq_append {below : Text} (closes : below.ClosesLine) :
    below = lineBreak below ++ (partsBelow below).flatMap partText := by
  have whole := flatMap_physicalLines below
  rw [physicalLines_of_closesLine below closes] at whole
  exact whole.symm

theorem placeLines_append (start : Nat) (parts more : List (Text × Option Newline)) :
    placeLines start (parts ++ more) =
      placeLines start parts ++ placeLines (start + (parts.flatMap partText).length) more := by
  induction parts generalizing start with
  | nil => rfl
  | cons part rest inductionHypothesis =>
    rw [List.cons_append, placeLines, placeLines, inductionHypothesis, List.flatMap_cons,
      List.length_append, ← Nat.add_assoc]
    rfl

/-- A stretch of a text that is one of its lines: what stands above it, and what stands below it
with the ending of the line. -/
structure Text.Around (content above text below : Text) : Prop where
  whole : content = above ++ (text ++ below)
  fills : above.FillsLines
  isOneLine : text.OneLine
  closes : below.ClosesLine

namespace Text.Around

variable {content above text below : Text} (around : content.Around above text below)

include around

theorem physicalLines_eq (notEmpty : text ≠ []) :
    physicalLines content =
      partsAbove above ++ (text, lineEnding below) :: partsBelow below := by
  rw [around.whole, physicalLines_append,
    physicalLines_line text below around.isOneLine around.closes,
    foldr_prependUnit above around.fills]
  exact fun same => notEmpty (congrArg Prod.fst same)

theorem flatMap_partsAbove (notEmpty : text ≠ []) :
    (partsAbove above).flatMap partText = above := by
  have whole := flatMap_physicalLines content
  have behind := flatMap_physicalLines (text ++ below)
  rw [physicalLines_line text below around.isOneLine around.closes] at behind
  rw [around.physicalLines_eq notEmpty, List.flatMap_append, behind] at whole
  exact List.append_cancel_right (whole.trans around.whole)

/-- The line among the lines of the text. -/
theorem all_eq (notEmpty : text ≠ []) :
    (Lines.ofText content).all =
      placeLines 0 (partsAbove above) ++ ⟨above.length, text, lineEnding below⟩ ::
        placeLines (above.length + text.length + (lineBreak below).length) (partsBelow below) := by
  show placeLines 0 (physicalLines content) = _
  rw [around.physicalLines_eq notEmpty, placeLines_append, around.flatMap_partsAbove notEmpty,
    Nat.zero_add, placeLines, Line.fullText, List.length_append, ← Nat.add_assoc]
  rfl

end Text.Around

theorem Text.exists_firstLine (text : Text) :
    ∃ line below : Text, text = line ++ below ∧ line.OneLine ∧ below.ClosesLine := by
  induction text with
  | nil => exact ⟨[], [], rfl, by decide, closesLine_nil⟩
  | cons unit rest inductionHypothesis =>
    by_cases breaks : unit = 0x0A ∨ unit = 0x0D
    · refine ⟨[], unit :: rest, rfl, by decide, fun first isFirst => ?_⟩
      exact Option.some.inj isFirst ▸ breaks
    · obtain ⟨line, below, rfl, isOneLine, closes⟩ := inductionHypothesis
      exact ⟨unit :: line, below, rfl, List.forall_mem_cons.mpr ⟨not_or.mp breaks, isOneLine⟩,
        closes⟩

theorem Text.exists_lastLine (text : Text) :
    ∃ above before : Text, text = above ++ before ∧ above.FillsLines ∧ before.OneLine := by
  induction text using List.reverseRecOn with
  | nil => exact ⟨[], [], rfl, fillsLines_nil, by decide⟩
  | append_singleton rest unit inductionHypothesis =>
    by_cases breaks : unit = 0x0A ∨ unit = 0x0D
    · refine ⟨rest ++ [unit], [], (List.append_nil _).symm, fun last isLast => ?_, by decide⟩
      rw [List.getLast?_concat] at isLast
      exact Option.some.inj isLast ▸ breaks
    · obtain ⟨above, before, rfl, fills, isOneLine⟩ := inductionHypothesis
      exact ⟨above, before ++ [unit], List.append_assoc _ _ _, fills,
        isOneLine.append (List.forall_mem_singleton.mpr (not_or.mp breaks))⟩

/-- Every unit that ends no line stands in a line. -/
theorem Text.exists_around (content : Text) (position : Nat) (unit : CodeUnit)
    (here : content[position]? = some unit) (notBreak : unit ≠ 0x0A ∧ unit ≠ 0x0D) :
    ∃ above before line below : Text, content.Around above (before ++ line) below ∧
      above.length + before.length = position ∧ line.head? = some unit := by
  obtain ⟨above, before, aboveWhole, fills, beforeOneLine⟩ :=
    exists_lastLine (content.take position)
  obtain ⟨line, below, lineWhole, lineOneLine, closes⟩ := exists_firstLine (content.drop position)
  have head : (line ++ below).head? = some unit := by rw [← lineWhole, List.head?_drop, here]
  have inside := (List.getElem?_eq_some_iff.mp here).1
  refine ⟨above, before, line, below, ⟨?_, fills, beforeOneLine.append lineOneLine, closes⟩, ?_, ?_⟩
  · rw [List.append_assoc, ← lineWhole, ← List.append_assoc, ← aboveWhole, List.take_append_drop]
  · rw [← List.length_append, ← aboveWhole, List.length_take_of_le (Nat.le_of_lt inside)]
  · cases line with
    | nil => exact absurd (closes unit head) (not_or.mpr notBreak)
    | cons first rest => exact head

/-- What stands before and after a line of a text. -/
theorem exists_of_mem_placeLines (start : Nat) (parts : List (Text × Option Newline))
    (endings : parts.Pairwise fun part _ => part.2.isSome) (line : Line)
    (member : line ∈ placeLines start parts) :
    ∃ above below : Text, parts.flatMap partText = above ++ (line.text ++ below) ∧
      start + above.length = line.start ∧ below.ClosesLine := by
  induction parts generalizing start with
  | nil => exact absurd member List.not_mem_nil
  | cons part rest inductionHypothesis =>
    obtain ⟨hasEnding, restEndings⟩ := List.pairwise_cons.mp endings
    rcases List.mem_cons.mp member with rfl | later
    · refine ⟨[], (part.2.map Newline.text).getD [] ++ rest.flatMap partText, ?_, rfl, ?_⟩
      · rw [List.flatMap_cons, partText, List.append_assoc]
        rfl
      · intro unit first
        cases ending : part.2 with
        | none =>
          cases rest with
          | nil => simp [ending] at first
          | cons next _ => simpa [ending] using hasEnding next List.mem_cons_self
        | some newline =>
          rw [ending] at first
          refine newline.mem_text unit ?_
          cases newline <;> cases first <;> decide
    · obtain ⟨above, below, whole, place, closes⟩ := inductionHypothesis _ restEndings later
      refine ⟨partText part ++ above, below, ?_, ?_, closes⟩
      · rw [List.flatMap_cons, whole, List.append_assoc]
      · rw [List.length_append, ← Nat.add_assoc]
        exact place

theorem Lines.exists_of_mem (content : Text) (line : Line) (member : line ∈ (ofText content).all) :
    ∃ above below : Text, content = above ++ (line.text ++ below) ∧ above.length = line.start ∧
      below.ClosesLine := by
  obtain ⟨above, below, whole, place, closes⟩ :=
    exists_of_mem_placeLines 0 _ (physicalLines_pairwise content) line member
  rw [flatMap_physicalLines] at whole
  exact ⟨above, below, whole, by rw [← place, Nat.zero_add], closes⟩

end SourceLint
