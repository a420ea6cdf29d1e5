/-
The lines of a text. A line ends at a line feed, at a carriage return, or at the two in this order,
which then count as one ending; the last line has no ending and may be empty. The lines are kept
with their endings, so that nothing of the text is lost, and with the position where each begins.
-/
import SourceLint.LintError

namespace SourceLint

/-- How a line may end. -/
inductive Newline where
  | lf
  | crlf
  | cr
  deriving DecidableEq, Repr

/-- The units of a line ending. -/
def Newline.text : Newline → Text
  | lf => [0x0A]
  | crlf => [0x0D, 0x0A]
  | cr => [0x0D]

/-- One line: the position of its first unit, its text without the ending, and the ending. -/
structure Line where
  start : Nat
  text : Text
  ending : Option Newline
  deriving DecidableEq, Repr

namespace Line

/-- The position just past the text of a line. -/
def stop (line : Line) : Nat := line.start + line.text.length

/-- The span of a line without its ending. -/
def span (line : Line) : Span := ⟨line.start, line.stop⟩

/-- The units of a line with its ending. -/
def fullText (line : Line) : Text := line.text ++ (line.ending.map Newline.text).getD []

end Line

/-- A text cut after each line ending. The last part has no ending. -/
def physicalLines : Text → List (Text × Option Newline)
  | [] => [([], none)]
  | unit :: rest =>
    if unit = 0x0A then ([], some .lf) :: physicalLines rest
    else if unit = 0x0D then
      match rest with
      | [] => [([], some .cr), ([], none)]
      | next :: rest =>
        if next = 0x0A then ([], some .crlf) :: physicalLines rest
        else ([], some .cr) :: physicalLines (next :: rest)
    else
      match physicalLines rest with
      | (text, ending) :: more => (unit :: text, ending) :: more
      | [] => [([unit], none)]

/-- Parts with the positions where they begin, the first at `start`. -/
def placeLines : Nat → List (Text × Option Newline) → List Line
  | _, [] => []
  | start, (text, ending) :: rest =>
    let line : Line := ⟨start, text, ending⟩
    line :: placeLines (start + line.fullText.length) rest

/-- A text together with its lines. -/
structure Lines where
  content : Text
  all : List Line

namespace Lines

/-- The lines of a text. -/
def ofText (content : Text) : Lines := ⟨content, placeLines 0 (physicalLines content)⟩

/-- The spans of the lines, from the first to the last. -/
def spans (lines : Lines) : List Span := lines.all.map Line.span

/-- How many lines end in a given way. -/
def count (lines : Lines) (newline : Newline) : Nat :=
  lines.all.countP fun line => line.ending = some newline

/-- The ending that most lines have. Of equal counts the first of line feed, the pair and carriage
return wins, so a text of one line is taken to use line feeds. -/
def dominantNewline (lines : Lines) : Newline :=
  let lf := lines.count .lf
  let crlf := lines.count .crlf
  let cr := lines.count .cr
  if lf < crlf then
    if crlf < cr then .cr else .crlf
  else if lf < cr then .cr else .lf

/-- The number of a line that holds a position, from `low` up to but not including `high`, found by
halving. A line holds the positions from its start up to and including its stop. -/
def holding? (lines : Array Line) (position : Int) (low high : Nat) : Option Nat :=
  if low < high then
    let middle := (low + high - 1) / 2
    match lines[middle]? with
    | some line =>
      if position < line.start then holding? lines position low middle
      else if line.stop < position then holding? lines position (middle + 1) high
      else some middle
    | none => holding? lines position low middle
  else none
termination_by high - low

/-- The number of the line that holds a position. Only a position between the two units of a line
ending, or outside the text, has none. -/
def lineAt (lines : Lines) (position : Int) : Except LintError Nat :=
  if position < 0 ∨ position > lines.content.length then .error (.positionOutside position)
  else
    match holding? lines.all.toArray position 0 lines.all.length with
    | some number => .ok number
    | none => .error (.positionInSeparator position)

end Lines

end SourceLint
