/-
What plain scalars stand for: the words and the shapes of numbers that are no texts. There are two
tables, that of YAML 1.2 and that of YAML 1.1, which a document can ask for; the older one has more
words and more shapes. A tag picks the rows of one type.
-/
import SourceLint.Text.Blank
import SourceLint.External.Yaml.Node

namespace SourceLint.External.Yaml

/-- Which table a document uses. -/
inductive Version where
  | v11
  | v12
  deriving DecidableEq, Repr

/-- A type that tags name and that the tables test for. -/
inductive ScalarType where
  | null
  | boolean
  | integer
  | float
  | timestamp
  deriving DecidableEq, Repr

/-! ### Shapes of numbers -/

/-- Whether a number begins with a minus sign, and the rest of it. -/
def cutSign : Text → Bool × Text
  | [] => (false, [])
  | unit :: rest =>
    if unit = '-' then (true, rest) else if unit = '+' then (false, rest) else (false, unit :: rest)

/-- A non-empty text of units of one kind. -/
def isRun (test : CodeUnit → Bool) (text : Text) : Bool := !text.isEmpty && text.all test

/-- A digit of a base up to ten. -/
def isDigitOf (base : Nat) (unit : CodeUnit) : Bool :=
  unit.isDigit && unit.toNat - 0x30 < base

/-- A digit or an underscore. -/
def isDigitOrBar (unit : CodeUnit) : Bool := unit.isDigit || unit == '_'

/-- The value of digits in a base up to ten. -/
def valueIn (base : Nat) (digits : Text) : Nat :=
  digits.foldl (fun value digit => value * base + (digit.toNat - 0x30)) 0

/-- A text without its underscores. -/
def dropBars (text : Text) : Text := text.filter (· != ('_' : CodeUnit))

/-- The number of digits in a base; without digits it is no number. -/
def digitsNumber (negative : Bool) (value : Text → Nat) (digits : Text) : Number :=
  if digits.isEmpty then .notANumber else .ofNat negative (value digits)

/-- The parts of a decimal number: the units before the point, those after it if there is a point,
and the exponent if there is one. -/
structure DecimalParts where
  whole : Text
  fraction : Option Text
  exponent : Option Text

/-- A number cut at its point and at its exponent sign. -/
def decimalParts (text : Text) : DecimalParts :=
  let isMark (unit : CodeUnit) : Bool := unit == 'e' || unit == 'E'
  let main := text.takeWhile fun unit => !isMark unit
  let exponent := if main.length < text.length then some (text.drop (main.length + 1)) else none
  let whole := main.takeWhile (· != ('.' : CodeUnit))
  let fraction := if whole.length < main.length then some (main.drop (whole.length + 1)) else none
  ⟨whole, fraction, exponent⟩

/-- An exponent: digits, after a sign if there is one. -/
def isExponent (text : Text) : Bool := isRun CodeUnit.isDigit (cutSign text).2

/-- The number of a decimal text whose parts are known. -/
def decimalNumber (negative : Bool) (parts : DecimalParts) : Number :=
  let whole := dropBars parts.whole
  let fraction := dropBars (parts.fraction.getD [])
  if whole.isEmpty && fraction.isEmpty then .notANumber
  else
    let (down, power) := cutSign (parts.exponent.getD [])
    let power : Int := Text.digitsValue power
    .ofDecimal negative (whole ++ fraction) ((if down then -power else power) - fraction.length)

/-- The words for infinity and for what is not a number. -/
def infinityOrNan? (text : Text) : Option Number :=
  let (negative, rest) := cutSign text
  if [Text.ofString ".inf", ".Inf", ".INF"].contains rest then some (.infinite negative)
  else if [Text.ofString ".nan", ".NaN", ".NAN"].contains text then some .notANumber
  else none

/-! ### YAML 1.2 -/

/-- The words for null, the empty text among them. -/
def isNullWord (text : Text) : Bool :=
  [Text.ofString "", "~", "null", "Null", "NULL"].contains text

/-- The words for true and false. -/
def booleanWord? (text : Text) : Option Bool :=
  if [Text.ofString "true", "True", "TRUE"].contains text then some true
  else if [Text.ofString "false", "False", "FALSE"].contains text then some false
  else none

/-- Integers of YAML 1.2: octal after `0o`, decimal with a sign, hexadecimal after `0x`. -/
def integer? (text : Text) : Option Number :=
  let (negative, digits) := cutSign text
  if Text.startsWith text "0o" && isRun (isDigitOf 8) (text.drop 2) then
    some (.ofNat false (valueIn 8 (text.drop 2)))
  else if isRun CodeUnit.isDigit digits then some (.ofNat negative (Text.digitsValue digits))
  else if Text.startsWith text "0x" && isRun CodeUnit.isHexDigit (text.drop 2) then
    some (.ofNat false (Text.hexDigitsValue (text.drop 2)))
  else none

/-- Decimal numbers of YAML 1.2: a point or an exponent, and digits on a side of the point. -/
def float? (text : Text) : Option Number :=
  match infinityOrNan? text with
  | some number => some number
  | none =>
    let (negative, rest) := cutSign text
    let parts := decimalParts rest
    let fraction := parts.fraction.getD []
    let wellFormed :=
      parts.whole.all CodeUnit.isDigit && fraction.all CodeUnit.isDigit &&
        !(parts.whole.isEmpty && fraction.isEmpty) &&
        (parts.fraction.isSome || parts.exponent.isSome) && (parts.exponent.all isExponent)
    if wellFormed then some (decimalNumber negative parts) else none

/-! ### YAML 1.1 -/

/-- The words for true and false of YAML 1.1. -/
def oldBooleanWord? (text : Text) : Option Bool :=
  if [Text.ofString "Y", "y", "Yes", "yes", "YES", "True", "true", "TRUE", "On", "on",
      "ON"].contains text then some true
  else if [Text.ofString "N", "n", "No", "no", "NO", "False", "false", "FALSE", "Off", "off",
      "OFF"].contains text then some false
  else none

/-- Digits and underscores of which the first is a digit. -/
def beginsWithDigit (text : Text) : Bool :=
  text.head?.any CodeUnit.isDigit && text.all isDigitOrBar

/-- Integers of YAML 1.1: binary, octal, decimal and hexadecimal, with underscores. -/
def oldInteger? (text : Text) : Option Number :=
  let (negative, rest) := cutSign text
  let isBarOr (test : CodeUnit → Bool) (unit : CodeUnit) : Bool := unit == '_' || test unit
  if Text.startsWith rest "0b" && isRun (isBarOr (isDigitOf 2)) (rest.drop 2) then
    some (digitsNumber negative (valueIn 2) (dropBars (rest.drop 2)))
  else if Text.startsWith rest "0" && isRun (isBarOr (isDigitOf 8)) (rest.drop 1) then
    some (digitsNumber negative (valueIn 8) (dropBars (rest.drop 1)))
  else if beginsWithDigit rest then
    some (digitsNumber negative Text.digitsValue (dropBars rest))
  else if Text.startsWith rest "0x" && isRun (isBarOr CodeUnit.isHexDigit) (rest.drop 2) then
    some (digitsNumber negative Text.hexDigitsValue (dropBars (rest.drop 2)))
  else none

/-- Decimal numbers of YAML 1.1, with underscores. -/
def oldFloat? (text : Text) : Option Number :=
  match infinityOrNan? text with
  | some number => some number
  | none =>
    let (negative, rest) := cutSign text
    let parts := decimalParts rest
    let wellFormed :=
      (parts.whole.isEmpty || beginsWithDigit parts.whole) &&
        (parts.fraction.getD []).all isDigitOrBar &&
        (parts.fraction.isSome || parts.exponent.isSome) && (parts.exponent.all isExponent)
    if wellFormed then some (decimalNumber negative parts) else none

/-- A part of a number in base sixty after its first. -/
def isSixtieth (text : Text) : Bool :=
  match text with
  | [unit] => unit.isDigit
  | [tens, unit] => isDigitOf 6 tens && unit.isDigit
  | _ => false

/-- Numbers in base sixty, parts between colons; the last may have a fraction. -/
def sexagesimal? (withFraction : Bool) (text : Text) : Option Number :=
  let (negative, rest) := cutSign text
  let main := if withFraction then rest.takeWhile (· != ('.' : CodeUnit)) else rest
  let fraction := rest.drop (main.length + 1)
  let hasFraction := main.length < rest.length && fraction.all isDigitOrBar
  match Text.splitAt ':' main with
  | first :: next :: more =>
    if beginsWithDigit first && (next :: more).all isSixtieth && hasFraction == withFraction then
      let value := (next :: more).foldl (fun value part => value * 60 + Text.digitsValue part)
        (Text.digitsValue (dropBars first))
      let digits := dropBars fraction
      some
        (.ofFraction negative
          (value * Number.powerOfTen digits.length + Text.digitsValue digits)
          (Number.powerOfTen digits.length))
    else none
  | _ => none

/-! ### Dates -/

/-- One or two digits at the start of a text, and the rest. -/
def cutShortNumber (text : Text) : Option Text :=
  match text with
  | first :: second :: rest =>
    if first.isDigit then some (if second.isDigit then rest else second :: rest) else none
  | [first] => if first.isDigit then some [] else none
  | [] => none

/-- A text without a unit that it has to begin with. -/
def cutUnit (unit : CodeUnit) : Text → Option Text
  | [] => none
  | first :: rest => if first = unit then some rest else none

/-- Nothing, or a time zone: the letter Z, or a sign, one or two digits for the hours, and perhaps
two for the minutes. -/
def isZone (text : Text) : Bool :=
  match dropSpaces text with
  | [] => (text == [])
  | first :: rest =>
    if first = 'Z' then rest.isEmpty
    else if first = '-' || first = '+' then
      let isTail (tail : Text) : Bool :=
        match tail with
        | [] => true
        | [colon, tens, unit] => colon == (':' : CodeUnit) && tens.isDigit && unit.isDigit
        | _ => false
      match rest with
      | hour :: more =>
        (hour.isDigit && isTail more) ||
          (isDigitOf 3 hour &&
            match more with
            | unit :: tail => unit.isDigit && isTail tail
            | [] => false)
      | [] => false
    else false
where
  /-- The text without the spaces and tabs at its start. -/
  dropSpaces (text : Text) : Text := text.dropWhile CodeUnit.isSpaceOrTab

/-- A time of day after a date, with the zone after it. -/
def isTimeOfDay (text : Text) : Bool :=
  let parsed := do
    let text ← cutShortNumber text
    let text ← cutUnit ':' text
    let text ← cutShortNumber text
    let text ← cutUnit ':' text
    cutShortNumber text
  match parsed with
  | none => false
  | some rest =>
    isZone rest ||
      match rest with
      | point :: fraction =>
        point == ('.' : CodeUnit) && fraction.head?.any CodeUnit.isDigit &&
          isZone (fraction.dropWhile CodeUnit.isDigit)
      | [] => false

/-- A date, alone or with a time of day after it. -/
def isTimestamp (text : Text) : Bool :=
  let parsed := do
    let year := text.take 4
    let text ← if isRun CodeUnit.isDigit year && year.length = 4 then some (text.drop 4) else none
    let text ← cutUnit '-' text
    let text ← cutShortNumber text
    let text ← cutUnit '-' text
    cutShortNumber text
  match parsed with
  | none => false
  | some [] => true
  | some (first :: rest) =>
    if first = 't' || first = 'T' then isTimeOfDay rest
    else if first.isSpaceOrTab then isTimeOfDay (rest.dropWhile CodeUnit.isSpaceOrTab)
    else false

/-! ### The tables -/

/-- What a scalar text is as a value of some type, if it has the shape of one; nothing in the inner
place is null. -/
def Version.test (version : Version) (type : ScalarType) (text : Text) :
    Option (Option Content) :=
  match version, type with
  | _, .null => if isNullWord text then some none else none
  | .v12, .boolean => (booleanWord? text).map fun value => some (.boolean value)
  | .v11, .boolean => (oldBooleanWord? text).map fun value => some (.boolean value)
  | .v12, .integer => (integer? text).map fun number => some (.number number)
  | .v11, .integer =>
    (oldInteger? text <|> sexagesimal? false text).map fun number => some (.number number)
  | .v12, .float => (float? text).map fun number => some (.number number)
  | .v11, .float =>
    (oldFloat? text <|> sexagesimal? true text).map fun number => some (.number number)
  | .v12, .timestamp => none
  | .v11, .timestamp => if isTimestamp text then some (some .other) else none

/-- What a plain scalar without a tag stands for; nothing is null. In YAML 1.1 the key `<<` is the
sign that merges mappings. -/
def Version.plainContent (version : Version) (isKey : Bool) (text : Text) : Option Content :=
  let found :=
    [ScalarType.null, .boolean, .integer, .float, .timestamp].findSome? fun type =>
      version.test type text
  match found with
  | some content => content
  | none =>
    some (if version = .v11 && isKey && text = Text.ofString "<<" then .other else .text text)

/-- What a scalar with a tag stands for. A tag that names no type, or whose type the text does not
fit, leaves it a text; only a date has to fit. -/
def Version.taggedContent? (version : Version) (tag text : Text) : Option (Option Content) :=
  let typed (type : ScalarType) : Option (Option Content) :=
    some ((version.test type text).getD (some (.text text)))
  if tag = Text.ofString "tag:yaml.org,2002:null" then typed .null
  else if tag = Text.ofString "tag:yaml.org,2002:bool" then typed .boolean
  else if tag = Text.ofString "tag:yaml.org,2002:int" then typed .integer
  else if tag = Text.ofString "tag:yaml.org,2002:float" then typed .float
  else if tag = Text.ofString "tag:yaml.org,2002:binary" then some (some .other)
  else if tag = Text.ofString "tag:yaml.org,2002:merge" then
    some (some (if version = .v12 || text = Text.ofString "<<" then .other else .text text))
  else if tag = Text.ofString "tag:yaml.org,2002:timestamp" then
    match version with
    | .v11 => typed .timestamp
    | .v12 => if isTimestamp text then some (some .other) else none
  else some (some (.text text))

end SourceLint.External.Yaml
