/-
This file says which lists of parts are the lines of the text that they make up: each part has no
line ending within, all but the last have one behind them, and no line feed alone follows a carriage
return. So the lines of a text are known once each of them has been changed into another line.
-/
import SourceLint.Proofs.Lines.Around

namespace SourceLint

/-- Parts that are the lines of the text they make up. -/
inductive AreLines : List (Text × Option Newline) → Prop
  | last {text : Text} (isOneLine : text.OneLine) : AreLines [(text, none)]
  | cons {text : Text} {newline : Newline} {next : Text × Option Newline}
      {rest : List (Text × Option Newline)} (isOneLine : text.OneLine)
      (apart : newline = .cr → next ≠ ([], some .lf)) (more : AreLines (next :: rest)) :
      AreLines ((text, some newline) :: next :: rest)

theorem AreLines.ne_nil {parts : List (Text × Option Newline)} (areLines : AreLines parts) :
    parts ≠ [] := by
  cases areLines <;> exact List.cons_ne_nil _ _

theorem AreLines.isOneLine {parts : List (Text × Option Newline)} (areLines : AreLines parts)
    {part : Text × Option Newline} (member : part ∈ parts) : part.1.OneLine := by
  induction areLines with
  | last isOneLine => exact List.mem_singleton.mp member ▸ isOneLine
  | cons isOneLine _ _ inductionHypothesis =>
    rcases List.mem_cons.mp member with rfl | later
    · exact isOneLine
    · exact inductionHypothesis later

theorem areLines_prependUnit (unit : CodeUnit) {parts : List (Text × Option Newline)}
    (areLines : AreLines parts) : AreLines (prependUnit unit parts) := by
  obtain ⟨⟨text, ending⟩, more, rfl⟩ := List.exists_cons_of_ne_nil areLines.ne_nil
  have empty : Text.OneLine [] := List.forall_mem_nil _
  have isLf {part : Text × Option Newline} : Newline.lf = .cr → part ≠ ([], some .lf) :=
    fun same => by cases same
  have isCrlf {part : Text × Option Newline} : Newline.crlf = .cr → part ≠ ([], some .lf) :=
    fun same => by cases same
  rw [prependUnit]
  split_ifs with isFeed isReturn joins
  · exact .cons empty isLf areLines
  · obtain ⟨rfl, rfl⟩ := joins
    cases areLines with
    | cons _ _ more => exact .cons empty isCrlf more
  · exact .cons empty (fun _ same => joins ⟨congrArg Prod.fst same, congrArg Prod.snd same⟩) areLines
  · have isOneLine {text : Text} (others : text.OneLine) : Text.OneLine (unit :: text) :=
      List.forall_mem_cons.mpr ⟨⟨isFeed, isReturn⟩, others⟩
    cases areLines with
    | last others => exact .last (isOneLine others)
    | cons others apart more => exact .cons (isOneLine others) apart more

/-- The lines of a text are such parts. -/
theorem areLines_physicalLines (text : Text) : AreLines (physicalLines text) := by
  induction text with
  | nil => exact .last (List.forall_mem_nil _)
  | cons unit rest inductionHypothesis =>
    rw [physicalLines_cons]
    exact areLines_prependUnit unit inductionHypothesis

/-- A line ending before a text, where the two endings stay apart, is a part of its own. -/
theorem physicalLines_newline_append (newline : Newline) {below : Text}
    {next : Text × Option Newline} {rest : List (Text × Option Newline)}
    (parts : physicalLines below = next :: rest) (apart : newline = .cr → next ≠ ([], some .lf)) :
    physicalLines (newline.text ++ below) = ([], some newline) :: next :: rest := by
  obtain ⟨text, ending⟩ := next
  rw [physicalLines_append, parts]
  cases newline with
  | lf => rfl
  | crlf => rfl
  | cr =>
    have unlike := apart rfl
    rw [Newline.text, List.foldr_cons, List.foldr_nil, prependUnit, if_neg (by decide), if_pos rfl,
      if_neg fun same => unlike (Prod.ext same.1 same.2)]

/-- Lines that end with line feeds, with nothing behind the last one. -/
def endedLines (texts : List Text) : List (Text × Option Newline) :=
  texts.map (fun text => (text, some .lf)) ++ [([], none)]

theorem areLines_endedLines {texts : List Text} (areOneLine : ∀ text ∈ texts, text.OneLine) :
    AreLines (endedLines texts) := by
  induction texts with
  | nil => exact .last (List.forall_mem_nil _)
  | cons text texts inductionHypothesis =>
    obtain ⟨isOneLine, others⟩ := List.forall_mem_cons.mp areOneLine
    have areLines := inductionHypothesis others
    obtain ⟨next, rest, same⟩ := List.exists_cons_of_ne_nil areLines.ne_nil
    rw [endedLines, List.map_cons, List.cons_append]
    change AreLines ((text, some .lf) :: endedLines texts)
    rw [same] at areLines ⊢
    exact .cons isOneLine (fun isReturn => by cases isReturn) areLines

theorem AreLines.map {parts : List (Text × Option Newline)} (areLines : AreLines parts)
    {change : Text → Text} (keeps : ∀ text, change text = [] ↔ text = [])
    (areOneLine : ∀ text, text.OneLine → (change text).OneLine) :
    AreLines (parts.map fun part => (change part.1, part.2)) := by
  induction areLines with
  | last isOneLine => exact .last (areOneLine _ isOneLine)
  | cons isOneLine apart more inductionHypothesis =>
    refine .cons (areOneLine _ isOneLine) (fun isReturn same => apart isReturn ?_)
      inductionHypothesis
    obtain ⟨isNil, isFeed⟩ := Prod.ext_iff.mp same
    exact Prod.ext ((keeps _).mp isNil) isFeed

theorem Newline.closesLine (newline : Newline) (below : Text) :
    (newline.text ++ below).ClosesLine := by
  intro unit isFirst
  refine newline.mem_text unit ?_
  cases newline <;> cases isFirst <;> decide

/-- Such parts are the lines of the text that they make up. -/
theorem AreLines.physicalLines_eq {parts : List (Text × Option Newline)}
    (areLines : AreLines parts) : physicalLines (parts.flatMap partText) = parts := by
  induction areLines with
  | last isOneLine =>
    have alone := physicalLines_line _ [] isOneLine Text.closesLine_nil
    simpa [partText, lineEnding, partsBelow, physicalLines] using alone
  | @cons text newline next rest isOneLine apart more inductionHypothesis =>
    have below := physicalLines_newline_append newline inductionHypothesis apart
    have whole : ((text, some newline) :: next :: rest).flatMap partText =
        text ++ (newline.text ++ (next :: rest).flatMap partText) := by
      rw [List.flatMap_cons, partText, List.append_assoc]
      rfl
    rw [whole, physicalLines_line _ _ isOneLine (newline.closesLine _), lineEnding, partsBelow, below]
    rfl

/-! ### The end of the last line -/

/-- The line feed that ends the last line of a text, where it has none. -/
def Text.closing (text : Text) : Text :=
  if !text.isEmpty && !text.endsWith "\n" then "\n" else ""

/-- The parts of a text whose last line ends with a line feed, without the empty part behind it. -/
def closeLast : List (Text × Option Newline) → List (Text × Option Newline)
  | [] => []
  | (text, ending) :: rest =>
    if rest = [] then if text = [] then [] else [(text, some .lf)]
    else if rest = [([], none)] then [(text, if ending = some .cr then some .crlf else ending)]
    else (text, ending) :: closeLast rest

/-- Texts without the last one if that is empty. -/
def withoutEmptyEnd (texts : List Text) : List Text :=
  if texts.getLast? = some [] then texts.dropLast else texts

theorem Text.endsWith_feed_iff (text : Text) :
    text.endsWith "\n" = true ↔ text.getLast? = some 0x0A := by
  rw [Text.endsWith, List.isSuffixOf_iff_suffix, List.getLast?_eq_some_iff]
  exact ⟨fun ⟨front, same⟩ => ⟨front, same.symm⟩, fun ⟨front, same⟩ => ⟨front, same.symm⟩⟩

theorem Text.closing_eq (text : Text) :
    text.closing = if text = [] ∨ text.getLast? = some 0x0A then [] else [0x0A] := by
  rw [Text.closing]
  by_cases empty : text = [] <;> by_cases ends : text.endsWith "\n" = true
  all_goals simp [empty, ends, ← Text.endsWith_feed_iff]
  all_goals rfl

/-- What comes before a text has no influence on how it has to be ended. -/
theorem Text.closing_append (left : Text) {right : Text} (notEmpty : right ≠ []) :
    Text.closing (left ++ right) = Text.closing right := by
  rw [Text.closing_eq, Text.closing_eq, List.getLast?_append_of_ne_nil _ notEmpty]
  simp [notEmpty]

theorem Text.OneLine.closing_eq {text : Text} (isOneLine : text.OneLine) (notEmpty : text ≠ []) :
    text.closing = [0x0A] := by
  rw [Text.closing_eq, if_neg]
  rintro (isNil | ends)
  · exact notEmpty isNil
  · exact (isOneLine _ (List.mem_of_getLast? ends)).1 rfl

theorem Newline.closing_eq (text : Text) (newline : Newline) :
    (text ++ newline.text).closing = if newline = .cr then [0x0A] else [] := by
  rw [Text.closing_append _ (List.ne_nil_of_length_pos newline.text_length_pos), Text.closing_eq]
  cases newline <;> rfl

/-- Ending the last line leaves the texts of lines as they are, and lets no line begin to end with a
line feed alone but the last. -/
theorem AreLines.exists_closeLast_cons {part : Text × Option Newline}
    {rest : List (Text × Option Newline)} (areLines : AreLines (part :: rest))
    (proper : part :: rest ≠ [([], none)]) :
    ∃ ending more, closeLast (part :: rest) = (part.1, ending) :: more ∧
      (part ≠ ([], some .lf) → (part.1, ending) ≠ ([], some .lf)) := by
  cases areLines with
  | @last text =>
    have notEmpty : text ≠ [] := by
      rintro rfl
      exact proper rfl
    exact ⟨_, _, by rw [closeLast, if_pos rfl, if_neg notEmpty], fun _ same =>
      notEmpty (congrArg Prod.fst same)⟩
  | @cons text newline next rest =>
    rw [closeLast, if_neg (List.cons_ne_nil _ _)]
    split
    case isFalse => exact ⟨_, _, rfl, id⟩
    case isTrue =>
      refine ⟨_, _, rfl, fun unlike same => unlike ?_⟩
      cases newline with
      | lf => simpa using same
      | crlf | cr => simp at same

namespace AreLines

variable {parts : List (Text × Option Newline)}

theorem text_eq_nil_iff (areLines : AreLines parts) :
    parts.flatMap partText = [] ↔ parts = [([], none)] := by
  cases areLines with
  | last => simp [partText]
  | @cons text newline =>
    have some := List.ne_nil_of_length_pos newline.text_length_pos
    simp [partText, some]

/-- Ending the last line puts in a line feed where there is none. -/
theorem text_closeLast (areLines : AreLines parts) :
    (closeLast parts).flatMap partText =
      parts.flatMap partText ++ Text.closing (parts.flatMap partText) := by
  induction areLines with
  | @last text isOneLine =>
    by_cases empty : text = []
    · subst empty
      rfl
    · have closed := isOneLine.closing_eq empty
      simp [closeLast, empty, partText, closed, Newline.text]
  | @cons text newline next rest isOneLine apart more inductionHypothesis =>
    by_cases ends : next :: rest = [([], none)]
    · cases ends
      have closed := newline.closing_eq text
      cases newline <;> simp [closeLast, partText, Newline.text] at closed ⊢ <;> rw [closed]
    · have some : (next :: rest).flatMap partText ≠ [] := fun isNil =>
        ends (more.text_eq_nil_iff.mp isNil)
      have whole : ((text, Option.some newline) :: next :: rest).flatMap partText =
          partText (text, Option.some newline) ++ (next :: rest).flatMap partText :=
        List.flatMap_cons
      rw [closeLast, if_neg (List.cons_ne_nil _ _), if_neg ends, List.flatMap_cons,
        inductionHypothesis, whole, Text.closing_append _ some, List.append_assoc]

/-- Behind the end of the last line further lines may follow. -/
theorem closeLast_append (areLines : AreLines parts) {others : List (Text × Option Newline)}
    (areOthers : AreLines others) : AreLines (closeLast parts ++ others) := by
  obtain ⟨other, more, rfl⟩ := List.exists_cons_of_ne_nil areOthers.ne_nil
  induction areLines with
  | @last text isOneLine =>
    by_cases empty : text = []
    · simpa [closeLast, empty] using areOthers
    · have closed : AreLines ((text, some .lf) :: other :: more) :=
        .cons isOneLine (fun same => by cases same) areOthers
      simpa [closeLast, empty] using closed
  | @cons text newline next rest isOneLine apart areMore inductionHypothesis =>
    by_cases ends : next :: rest = [([], none)]
    · cases ends
      rw [closeLast, if_neg (List.cons_ne_nil _ _), if_pos rfl]
      cases newline
      all_goals exact .cons isOneLine (fun same => by cases same) areOthers
    · obtain ⟨ending, closed, same, unlike⟩ := areMore.exists_closeLast_cons ends
      rw [closeLast, if_neg (List.cons_ne_nil _ _), if_neg ends, List.cons_append]
      rw [same, List.cons_append] at inductionHypothesis ⊢
      exact .cons isOneLine (fun isReturn => unlike (apart isReturn)) inductionHypothesis

/-- Lines that change, but do not become empty or stop to be so, have to be ended as before. -/
theorem closing_map (areLines : AreLines parts) {change : Text → Text}
    (keeps : ∀ text, change text = [] ↔ text = [])
    (areOneLine : ∀ text, text.OneLine → (change text).OneLine) :
    Text.closing ((parts.map fun part => (change part.1, part.2)).flatMap partText) =
      Text.closing (parts.flatMap partText) := by
  induction areLines with
  | @last text isOneLine =>
    by_cases empty : text = []
    · have changedEmpty : change [] = [] := (keeps []).mpr rfl
      simp [partText, changedEmpty, empty]
    · have changed := (areOneLine text isOneLine).closing_eq fun isNil => empty ((keeps text).mp isNil)
      simp [partText, isOneLine.closing_eq empty, changed]
  | @cons text newline next rest isOneLine apart more inductionHypothesis =>
    have changedMore := more.map keeps areOneLine
    have behind : (next :: rest).flatMap partText = [] ↔
        ((next :: rest).map fun part => (change part.1, part.2)).flatMap partText = [] := by
      rw [more.text_eq_nil_iff, changedMore.text_eq_nil_iff]
      obtain ⟨nextText, ending⟩ := next
      simp [keeps]
    rw [List.map_cons, List.flatMap_cons, List.flatMap_cons]
    by_cases ends : (next :: rest).flatMap partText = []
    · rw [ends, behind.mp ends, List.append_nil, List.append_nil]
      exact (newline.closing_eq _).trans (newline.closing_eq _).symm
    · rw [Text.closing_append _ ends, Text.closing_append _ (fun isNil => ends (behind.mpr isNil)),
        inductionHypothesis]

end AreLines

theorem map_fst_closeLast {parts : List (Text × Option Newline)} (areLines : AreLines parts) :
    (closeLast parts).map Prod.fst = withoutEmptyEnd (parts.map Prod.fst) := by
  induction areLines with
  | @last text =>
    by_cases empty : text = [] <;> simp [closeLast, withoutEmptyEnd, empty]
  | @cons text newline next rest isOneLine apart areMore inductionHypothesis =>
    have skips : withoutEmptyEnd (text :: (next :: rest).map Prod.fst) =
        text :: withoutEmptyEnd ((next :: rest).map Prod.fst) := by
      simp only [withoutEmptyEnd, List.map_cons, List.getLast?_cons_cons, List.dropLast_cons_cons]
      split <;> rfl
    rw [List.map_cons, skips, ← inductionHypothesis, closeLast, if_neg (List.cons_ne_nil _ _)]
    split
    case isTrue ends =>
      cases ends
      rfl
    case isFalse => rfl

theorem mem_of_mem_withoutEmptyEnd {texts : List Text} {text : Text}
    (member : text ∈ withoutEmptyEnd texts) : text ∈ texts := by
  rw [withoutEmptyEnd] at member
  split at member
  · exact (List.dropLast_sublist texts).subset member
  · exact member

end SourceLint
