/-
This file says what the report shows of a replacement. The removed line is the line of its start, as
it was. If neither the span nor the new text goes over a line ending, the replacement is shown in
full, and then the added line is that same line as the replacement leaves it, where the lines of the
whole text are otherwise the same. Only between a carriage return and a line feed a line that becomes
empty is gone with the ending above it, and the report still shows it as an empty line.
-/
import SourceLint.Proofs.Lines.Changed
import SourceLint.Proofs.Linter.Splice
import SourceLint.Report

namespace SourceLint

namespace Report

/-- The notes on a replacement that is shown in full. -/
def fullNotes : List Text := ["suggested fix", "suggested fix applied"]

/-- The notes on a replacement that is too long to display. -/
def shortNotes : List Text :=
  ["suggested fix is too long to display, use --fix to apply it",
    "suggested fix applied but is too long to display"]

/-- What is printed for a replacement: its place, the line it changes before and after, and a note.
-/
structure Printed where
  place : Text
  removed : Text
  added : Text
  note : Text

/-- The lines that are printed. -/
def Printed.lines (printed : Printed) : List Text :=
  [printed.place, "-" ++ printed.removed, "+" ++ printed.added, "note: " ++ printed.note, []]

/-- What is printed for a replacement tells what the replacement does to a line of a text. -/
structure Printed.Shows (printed : Printed) (content : Text) (replacement : Replacement)
    (number : Nat) (line : Line) : Prop where
  removed_eq : printed.removed = line.text
  short_iff : printed.note ∈ shortNotes ↔
    line.stop < replacement.span.stop ∨ ¬replacement.newText.OneLine
  full_iff : printed.note ∈ fullNotes ↔ printed.note ∉ shortNotes
  /-- A replacement shown in full changes nothing but the text of its line, which becomes the added
  one, unless an empty line is added between a carriage return and a line feed. -/
  changedAt_iff : printed.note ∈ fullNotes →
    ((Lines.ofText content).ChangedAt (Lines.ofText (replacement.putInto content)) number
        printed.added ↔
      ¬(printed.added = [] ∧ (Lines.ofText content).FeedBelowReturn number))

theorem replacementNote_mem_shortNotes (fixApplied tooLong : Bool) :
    replacementNote fixApplied tooLong ∈ shortNotes ↔ tooLong = true := by
  revert fixApplied tooLong
  decide

theorem replacementNote_mem_fullNotes (fixApplied tooLong : Bool) :
    replacementNote fixApplied tooLong ∈ fullNotes ↔ tooLong = false := by
  revert fixApplied tooLong
  decide

section

variable {content : Text} {span : Span} {number : Nat} {line : Line}

/-- The excerpt at a span is cut from the line of its start. -/
theorem excerpt_eq (filename check : Text)
    (found : (Lines.ofText content).lineAt span.start = .ok number)
    (isLine : (Lines.ofText content).all[number]? = some line) :
    excerpt (Source.ofText filename content check) span = .ok {
      line := number
      column := span.start - line.start
      before := content.slice line.start span.start
      marked := content.slice span.start (min span.stop line.stop)
      after := content.slice (min span.stop line.stop) line.stop
      truncated := span.stop > line.stop } := by
  simp only [excerpt, Source.ofText, Source.content, found, isLine, bind, Except.bind, pure,
    Except.pure, Option.getD_some, Lines.content_ofText]

theorem text_of_slice (isLine : (Lines.ofText content).all[number]? = some line) :
    content.slice line.start line.stop = line.text := by
  obtain ⟨above, below, whole, place, _⟩ :=
    Lines.exists_of_mem content line (List.mem_of_getElem? isLine)
  rw [whole, Line.stop, ← place, Text.slice_append]

/-- The three pieces of a line make up the line. -/
theorem pieces_eq (isLine : (Lines.ofText content).all[number]? = some line)
    {first second : Nat} (after : line.start ≤ first) (forward : first ≤ second)
    (before : second ≤ line.stop) :
    content.slice line.start first ++
        (content.slice first second ++ content.slice second line.stop) = line.text := by
  rw [Text.slice_append_slice content forward before,
    Text.slice_append_slice content after (Nat.le_trans forward before), text_of_slice isLine]

end

/-! ### What is printed -/

/-- A new text has more than one line exactly if it has a line ending. -/
theorem newLines_iff (text : Text) :
    (Lines.ofText text).all.length > 1 ↔ ¬text.OneLine := by
  constructor
  · intro more isOneLine
    rw [Lines.ofText_of_oneLine isOneLine] at more
    exact absurd more (Nat.lt_irrefl 1)
  · exact fun breaks => Nat.lt_of_not_le fun atMostOne => breaks (Lines.oneLine_of_length_le atMostOne)

section

variable (content : Text) (fixApplied : Bool) (replacement : Replacement) (line : Line)

/-- A replacement is not on one line: it goes beyond the line it starts in, or its new text has more
than one line. -/
def isTooLong : Bool :=
  line.stop < replacement.span.stop || (Lines.ofText replacement.newText).all.length > 1

theorem isTooLong_iff :
    isTooLong replacement line = true ↔
      line.stop < replacement.span.stop ∨ ¬replacement.newText.OneLine := by
  rw [isTooLong, Bool.or_eq_true, decide_eq_true_eq, decide_eq_true_eq, newLines_iff]

/-- What is printed for a replacement on a line. -/
def printedOn (place : Text) : Printed where
  place := place
  removed := line.text
  added :=
    content.slice line.start replacement.span.start ++
        (((Lines.ofText replacement.newText).all.head?).map Line.text).getD [] ++
      if isTooLong replacement line then []
      else content.slice (min replacement.span.stop line.stop) line.stop
  note := replacementNote fixApplied (isTooLong replacement line)

variable {content replacement line} {number : Nat}

/-- A replacement within its line puts a new text between two pieces of the line. -/
theorem putInto_eq (after : line.start ≤ replacement.span.start)
    (within : replacement.span.stop ≤ line.stop) :
    replacement.putInto content =
      content.take line.start ++
        (content.slice line.start replacement.span.start ++ replacement.newText ++
            content.slice replacement.span.stop line.stop ++
          content.drop line.stop) := by
  rw [Replacement.putInto, ← Text.take_append_slice content _ _ after,
    ← Text.slice_append_drop content _ _ within]
  simp only [List.append_assoc]

variable (isLine : (Lines.ofText content).all[number]? = some line)
  (after : line.start ≤ replacement.span.start)
  (forward : replacement.span.start ≤ replacement.span.stop)

include isLine after forward

theorem exists_proposal_eq (filename check : Text)
    (found : (Lines.ofText content).lineAt replacement.span.start = .ok number)
    (before : replacement.span.start ≤ line.stop) :
    ∃ place, proposal .plain (Source.ofText filename content check) fixApplied replacement =
      .ok (printedOn content fixApplied replacement line place).lines := by
  have cut := excerpt_eq filename check found isLine
  have pieces := pieces_eq isLine after (Nat.le_min.mpr ⟨forward, before⟩) (Nat.min_le_right _ _)
  let excerpt : Excerpt := ⟨number, replacement.span.start - line.start, [], [], [], false⟩
  refine ⟨location .plain (Source.ofText filename content check) excerpt, ?_⟩
  simp only [proposal, cut, bind, Except.bind, pure, Except.pure, Style.plain, id_eq]
  simp only [printedOn, Printed.lines, ← pieces, List.append_assoc]
  rfl

/-- A replacement that stays on its line leaves its line with the added text. -/
theorem changedAt_iff_of_within (within : replacement.span.stop ≤ line.stop)
    (isOneLine : replacement.newText.OneLine) :
    let added := content.slice line.start replacement.span.start ++ replacement.newText ++
      content.slice replacement.span.stop line.stop
    (Lines.ofText content).ChangedAt (Lines.ofText (replacement.putInto content)) number added ↔
      ¬(added = [] ∧ (Lines.ofText content).FeedBelowReturn number) := by
  intro added
  have pieces := Lines.isOneLine_of_mem (List.mem_of_getElem? isLine)
  rw [← pieces_eq isLine after forward within] at pieces
  obtain ⟨front, rest⟩ := List.forall_mem_append.mp pieces
  have back := (List.forall_mem_append.mp rest).2
  rw [putInto_eq after within]
  exact Lines.changedAt_iff isLine ((Text.OneLine.append front isOneLine).append back)

theorem shows_printedOn (place : Text) :
    (printedOn content fixApplied replacement line place).Shows content replacement number line where
  removed_eq := rfl
  short_iff := (replacementNote_mem_shortNotes _ _).trans (isTooLong_iff replacement line)
  full_iff := by
    rw [printedOn, replacementNote_mem_shortNotes, replacementNote_mem_fullNotes,
      Bool.not_eq_true]
  changedAt_iff isFull := by
    rw [printedOn, replacementNote_mem_fullNotes] at isFull
    have onLine := mt (isTooLong_iff replacement line).mpr (Bool.not_eq_true _ ▸ isFull)
    rw [not_or, Nat.not_lt, not_not] at onLine
    obtain ⟨within, isOneLine⟩ := onLine
    have added : (printedOn content fixApplied replacement line place).added =
        content.slice line.start replacement.span.start ++ replacement.newText ++
          content.slice replacement.span.stop line.stop := by
      simp only [printedOn, isFull, Nat.min_eq_left within, Lines.ofText_of_oneLine isOneLine,
        List.head?_cons, Option.map_some, Option.getD_some, Bool.false_eq_true, if_false]
    rw [added]
    exact changedAt_iff_of_within isLine after forward within isOneLine

end

/-- What the report prints for a replacement that starts in a line tells how the lines of the text
change with it. -/
theorem proposal_shows (filename content check : Text) (fixApplied : Bool)
    (replacement : Replacement) (forward : replacement.span.start ≤ replacement.span.stop)
    (number : Nat) (found : (Lines.ofText content).lineAt replacement.span.start = .ok number) :
    ∃ (printed : Printed) (line : Line), (Lines.ofText content).all[number]? = some line ∧
      proposal .plain (Source.ofText filename content check) fixApplied replacement =
        .ok printed.lines ∧
      printed.Shows content replacement number line := by
  obtain ⟨line, isLine, after, before⟩ := Lines.exists_line_of_lineAt _ _ _ found
  obtain ⟨place, printed⟩ :=
    exists_proposal_eq fixApplied isLine after forward filename check found before
  exact ⟨_, line, isLine, printed, shows_printedOn fixApplied isLine after forward place⟩

/-- A text whose second line begins after the pair and ends with a line feed alone. -/
def greeting : Text := "a\r\nHello world!\nb"

theorem proposal_shows_greeting :
    (Lines.ofText greeting).lineAt 9 = .ok 1 ∧
      ∃ (printed : Printed) (line : Line), (Lines.ofText greeting).all[1]? = some line ∧
        proposal .plain (Source.ofText "file.txt" greeting "") false ⟨⟨9, 14⟩, "there"⟩ =
          .ok printed.lines ∧
        printed.Shows greeting ⟨⟨9, 14⟩, "there"⟩ 1 line := by
  have found : (Lines.ofText greeting).lineAt 9 = .ok 1 := by decide +kernel
  exact ⟨found, proposal_shows _ _ _ _ _ (by decide) _ found⟩

/-- A line between a carriage return and a line feed that is emptied is shown as an empty line, but
the two line endings around it become one. -/
theorem proposal_between_breaks :
    (Lines.ofText "a\rb\nc").lineAt 2 = .ok 1 ∧
      proposal .plain (Source.ofText "file.txt" "a\rb\nc" "") false ⟨⟨2, 3⟩, ""⟩ =
        .ok ["In file file.txt:2:1:", "-b", "+", "note: suggested fix", ""] ∧
      (Lines.ofText "a\rb\nc").endings = [some .cr, some .lf, none] ∧
      (Lines.ofText (Replacement.putInto ⟨⟨2, 3⟩, ""⟩ "a\rb\nc")).endings = [some .crlf, none] := by
  decide +kernel

end Report

end SourceLint
