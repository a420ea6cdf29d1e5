/-
This file says what becomes of the lines of a text when one of them gets another text. If the new
text has no line ending, then it is the only thing that changes: there are as many lines as before,
each with its ending. The exception is a line between a carriage return and a line feed that becomes
empty, since the two then are one line ending.
-/
import SourceLint.Proofs.Lines.Joined

namespace SourceLint

/-- How the lines of a text end, from the first to the last. -/
def Lines.endings (lines : Lines) : List (Option Newline) := lines.all.map Line.ending

/-- The lines of two texts are the same but for the text of one, which is given for the second. -/
structure Lines.ChangedAt (before after : Lines) (number : Nat) (text : Text) : Prop where
  texts_eq : after.all.map Line.text = (before.all.map Line.text).set number text
  endings_eq : after.endings = before.endings

/-- The line with a number ends with a line feed, and the one above it with a carriage return. -/
def Lines.FeedBelowReturn (lines : Lines) (number : Nat) : Prop :=
  0 < number ∧ lines.endings[number - 1]? = some (some .cr) ∧
    lines.endings[number]? = some (some .lf)

instance (lines : Lines) (number : Nat) : Decidable (lines.FeedBelowReturn number) :=
  inferInstanceAs (Decidable (_ ∧ _))

/-! ### The parts of a text -/

theorem areLines_cons_iff {text : Text} {newline : Newline} {next : Text × Option Newline}
    {rest : List (Text × Option Newline)} :
    AreLines ((text, some newline) :: next :: rest) ↔
      text.OneLine ∧ (newline = .cr → next ≠ ([], some .lf)) ∧ AreLines (next :: rest) := by
  constructor
  · rintro (_ | ⟨isOneLine, apart, more⟩)
    exact ⟨isOneLine, apart, more⟩
  · rintro ⟨isOneLine, apart, more⟩
    exact .cons isOneLine apart more

/-- The part with a new text at the head is a line as before. -/
theorem AreLines.change_head {text changed : Text} {ending : Option Newline}
    {below : List (Text × Option Newline)} (areLines : AreLines ((text, ending) :: below))
    (isOneLine : changed.OneLine) : AreLines ((changed, ending) :: below) := by
  cases areLines with
  | last _ => exact .last isOneLine
  | cons _ apart more => exact .cons isOneLine apart more

/-- Lines of which one has a new text are lines again, unless that one is now a line feed alone
below a carriage return. -/
theorem areLines_changed_iff {above below : List (Text × Option Newline)} {text changed : Text}
    {ending : Option Newline} (areLines : AreLines (above ++ (text, ending) :: below))
    (isOneLine : changed.OneLine) :
    AreLines (above ++ (changed, ending) :: below) ↔
      ¬((changed, ending) = ([], some .lf) ∧ above.getLast?.bind Prod.snd = some .cr) := by
  induction above with
  | nil => exact iff_of_true (areLines.change_head isOneLine) fun joins => by cases joins.2
  | cons first rest inductionHypothesis =>
    obtain ⟨firstText, firstEnding⟩ := first
    cases rest with
    | nil =>
      cases areLines with
      | @cons _ newline _ _ firstOneLine _ more =>
        rw [List.singleton_append, areLines_cons_iff, and_iff_right firstOneLine,
          and_iff_left (more.change_head isOneLine), not_and', Ne]
        exact imp_congr_left Option.some_inj.symm
    | cons second others =>
      cases areLines with
      | @cons _ newline _ _ firstOneLine apart more =>
        rw [List.getLast?_cons_cons, ← inductionHypothesis more, List.cons_append, List.cons_append,
          areLines_cons_iff]
        exact ⟨fun lines => lines.2.2, fun lines => ⟨firstOneLine, apart, lines⟩⟩

/-- The parts above and below the line with a number. -/
theorem exists_parts_of_getElem? (start : Nat) (parts : List (Text × Option Newline)) (number : Nat)
    (line : Line) (found : (placeLines start parts)[number]? = some line) :
    ∃ above below, parts = above ++ (line.text, line.ending) :: below ∧ above.length = number ∧
      start + (above.flatMap partText).length = line.start := by
  induction parts generalizing start number with
  | nil => cases found
  | cons part rest inductionHypothesis =>
    cases number with
    | zero =>
      cases found
      exact ⟨[], rest, rfl, rfl, rfl⟩
    | succ number =>
      obtain ⟨above, below, rfl, count, place⟩ := inductionHypothesis _ number found
      refine ⟨part :: above, below, rfl, congrArg Nat.succ count, ?_⟩
      rw [List.flatMap_cons, List.length_append, ← Nat.add_assoc]
      exact place

/-! ### The lines of a text -/

theorem Lines.endings_ofText (content : Text) :
    (ofText content).endings = (physicalLines content).map Prod.snd :=
  map_ending_placeLines 0 _

theorem Lines.texts_ofText (content : Text) :
    (ofText content).all.map Line.text = (physicalLines content).map Prod.fst :=
  map_text_placeLines 0 _

theorem Lines.isOneLine_of_mem {content : Text} {line : Line}
    (member : line ∈ (ofText content).all) : line.text.OneLine := by
  have isText := List.mem_map_of_mem (f := Line.text) member
  rw [texts_ofText] at isText
  obtain ⟨part, isPart, same⟩ := List.mem_map.mp isText
  exact same ▸ (areLines_physicalLines content).isOneLine isPart

/-- A text without a line ending is its only line, and any other text has more. -/
theorem Lines.ofText_of_oneLine {text : Text} (isOneLine : text.OneLine) :
    (ofText text).all = [⟨0, text, none⟩] := by
  have alone := (AreLines.last isOneLine).physicalLines_eq
  rw [List.flatMap_singleton, partText, Option.map_none, Option.getD_none, List.append_nil] at alone
  rw [ofText, alone]
  rfl

theorem Lines.oneLine_of_length_le {text : Text} (atMostOne : (ofText text).all.length ≤ 1) :
    text.OneLine := by
  have areLines := areLines_physicalLines text
  have whole := flatMap_physicalLines text
  rw [← List.length_map (f := Line.text), texts_ofText, List.length_map] at atMostOne
  generalize physicalLines text = parts at areLines whole atMostOne
  cases areLines with
  | last isOneLine => simpa [partText, ← whole] using isOneLine
  | cons => exact absurd atMostOne (by simp)

section

variable {content other : Text} {above below : List (Text × Option Newline)} {text changed : Text}
  {ending : Option Newline} (parts : physicalLines content = above ++ (text, ending) :: below)

include parts

theorem feedBelowReturn_iff :
    (Lines.ofText content).FeedBelowReturn above.length ↔
      ending = some .lf ∧ above.getLast?.bind Prod.snd = some .cr := by
  rw [Lines.FeedBelowReturn, Lines.endings_ofText, parts]
  cases above using List.reverseRecOn with
  | nil => simp
  | append_singleton front last =>
    obtain ⟨lastText, lastEnding⟩ := last
    simp [and_comm]

/-- The lines are the same but for one text exactly if they are the parts with that text. -/
theorem changedAt_iff_physicalLines :
    (Lines.ofText content).ChangedAt (Lines.ofText other) above.length changed ↔
      physicalLines other = above ++ (changed, ending) :: below := by
  have texts : ((Lines.ofText content).all.map Line.text).set above.length changed =
      (above ++ (changed, ending) :: below).map Prod.fst := by
    rw [Lines.texts_ofText, parts]
    simp
  have endings : (Lines.ofText content).endings =
      (above ++ (changed, ending) :: below).map Prod.snd := by
    rw [Lines.endings_ofText, parts]
    simp
  constructor
  · rintro ⟨sameTexts, sameEndings⟩
    rw [texts, Lines.texts_ofText] at sameTexts
    rw [endings, Lines.endings_ofText] at sameEndings
    exact (List.zip_of_prod sameTexts sameEndings).trans (List.zip_of_prod rfl rfl).symm
  · intro same
    exact ⟨by rw [texts, Lines.texts_ofText, same], by rw [endings, Lines.endings_ofText, same]⟩

end

/-- A text in which a line gets another text without a line ending has the same lines but for that
text, unless the line becomes empty between a carriage return and a line feed. -/
theorem Lines.changedAt_iff {content : Text} {number : Nat} {line : Line}
    (found : (ofText content).all[number]? = some line) {changed : Text}
    (isOneLine : changed.OneLine) :
    (ofText content).ChangedAt
        (ofText (content.take line.start ++ (changed ++ content.drop line.stop))) number changed ↔
      ¬(changed = [] ∧ (ofText content).FeedBelowReturn number) := by
  obtain ⟨above, below, parts, rfl, place⟩ := exists_parts_of_getElem? 0 _ _ _ found
  rw [Nat.zero_add] at place
  have areLines := areLines_physicalLines content
  rw [parts] at areLines
  have whole : content = above.flatMap partText ++
      (line.text ++ ((line.ending.map Newline.text).getD [] ++ below.flatMap partText)) := by
    conv_lhs => rw [← flatMap_physicalLines content, parts]
    simp [partText]
  have before : content.take line.start = above.flatMap partText := by
    rw [whole, ← place, List.take_left]
  have behind : content.drop line.stop =
      (line.ending.map Newline.text).getD [] ++ below.flatMap partText := by
    rw [whole, Line.stop, ← place, ← List.drop_drop, List.drop_left, List.drop_left]
  have joined : content.take line.start ++ (changed ++ content.drop line.stop) =
      (above ++ (changed, line.ending) :: below).flatMap partText := by
    rw [before, behind]
    simp [partText]
  rw [joined, changedAt_iff_physicalLines parts, feedBelowReturn_iff parts]
  have isChanged := areLines_changed_iff areLines isOneLine
  rw [Prod.mk.injEq, and_assoc] at isChanged
  rw [← isChanged]
  exact ⟨fun same => same ▸ areLines_physicalLines _, AreLines.physicalLines_eq⟩

end SourceLint
