/-
The notice of a copyright, from its first word to the name of the holder: the word, the sign `(c)` or
not, a year or two years with a hyphen between them, a comma or not, and the name, whose second word
is in capitals or begins with one. Any number of spaces, or none, may stand around the sign and
before the name.
-/
import SourceLint.Text

namespace SourceLint.Copyright

/-- A notice that a text begins with. -/
structure Notice where
  /-- How many units stand before the years. -/
  lead : Nat
  firstYear : Text
  lastYear : Option Text
  length : Nat
  deriving DecidableEq, Repr

namespace Notice

/-- A text without the spaces at its start. -/
def skipSpaces (text : Text) : Text := text.dropWhile fun unit => unit == 0x20

/-- A text without a given beginning, if it has it. -/
def skip (beginning text : Text) : Text := (Text.after? beginning text).getD text

/-- The four digits at the start of a text. -/
def year? (text : Text) : Option Text :=
  let digits := text.take 4
  if digits.length = 4 && digits.all CodeUnit.isDigit then some digits else none

/-- What comes after the name of the holder. -/
def afterHolder? (text : Text) : Option Text := do
  let rest ← Text.after? "NVIDIA C" text
  (Text.after? "ORPORATION" rest).orElse fun _ => Text.after? "orporation" rest

/-- The notice that a text begins with. -/
def read? (text : Text) : Option Notice := do
  let rest ← Text.after? "Copyright" text
  let rest := skipSpaces (skip "(c)" (skipSpaces rest))
  let lead := text.length - rest.length
  let firstYear ← year? rest
  let rest := rest.drop firstYear.length
  let lastYear := (Text.after? "-" rest).bind year?
  let rest :=
    match lastYear with
    | some year => rest.drop (1 + year.length)
    | none => rest
  let rest ← afterHolder? (skipSpaces (skip "," rest))
  return ⟨lead, firstYear, lastYear, text.length - rest.length⟩

/-- How many units the years take. -/
def yearsLength (notice : Notice) : Nat :=
  notice.firstYear.length +
    match notice.lastYear with
    | some year => 1 + year.length
    | none => 0

/-- The first year as a number. -/
def firstYearValue (notice : Notice) : Nat := Text.digitsValue notice.firstYear

/-- The last year as a number; a single year is also the last. -/
def lastYearValue (notice : Notice) : Nat :=
  Text.digitsValue (notice.lastYear.getD notice.firstYear)

/-- The first notice in a text that begins at a position, with its own position. -/
def findFrom? (position : Nat) : Text → Option (Nat × Notice)
  | [] => none
  | unit :: rest =>
    match read? (unit :: rest) with
    | some notice => some (position, notice)
    | none => findFrom? (position + 1) rest

/-- The first notice in a text that begins at or after a position. -/
def find? (content : Text) (start : Nat) : Option (Nat × Notice) :=
  findFrom? start (content.drop start)

end Notice

end SourceLint.Copyright
