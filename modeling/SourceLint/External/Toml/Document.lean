/-
The reading of a TOML document. This stands in for the library that the program is linked with when
its checks are tried out; no theorem is about it. Each reader takes a value or key from the start of a
text and gives it back with what comes after it, or refuses the text. The arrays of a document hold
values of one type each, and a date is followed by a blank, a comment or the end of its line wherever
it stands. A time without a date takes the unit after its seconds with it, unless it has a fraction.
-/
import SourceLint.External.Toml.DateTime
import SourceLint.Text.Blank
import SourceLint.Toml.Draft
import SourceLint.Toml.Layout

namespace SourceLint.External.Toml

open SourceLint.Toml (isBareKeyUnit Draft Table)

/-! ### Blanks and comments -/

/-- A text without the spaces and tabs at its start. -/
def dropBlanks (text : Text) : Text := text.dropWhile CodeUnit.isSpaceOrTab

/-- What comes after a comment: its line break goes with it. -/
def afterComment (text : Text) : Text := (text.dropWhile (· != 0x0A)).drop 1

/-- The end of a word: a blank, a comment, or the end of the line. -/
def endsWord : Text → Bool
  | [] => true
  | unit :: _ => unit == '#' || unit.isSpaceOrTab || unit == 0x0A || unit == 0x0D

/-- What comes after the rest of a line, which holds nothing but blanks and a comment. -/
def lineEnd? : Text → Option Text
  | [] => some []
  | unit :: rest =>
    if unit.isSpaceOrTab || unit = 0x0D then lineEnd? rest
    else if unit = '#' then some (afterComment rest)
    else if unit = 0x0A then some rest
    else none

/-- A text without the blanks, line breaks and comments at its start; the flag says that a comment
has begun. -/
def dropTrivia : Bool → Text → Text
  | _, [] => []
  | true, unit :: rest => dropTrivia (unit != 0x0A) rest
  | false, unit :: rest =>
    if unit.isSpaceOrTab || unit = 0x0D || unit = 0x0A then dropTrivia false rest
    else if unit = '#' then dropTrivia true rest
    else unit :: rest

/-! ### Strings -/

/-- A control unit that no string holds; a tab may stand in strings. -/
def isForbidden (unit : CodeUnit) : Bool := unit == 0x7F || (unit ≤ 0x1F && unit != 0x09)

/-- A string between single quotes on one line, after its opening quote. -/
def literalString? : Text → Option (Text × Text)
  | [] => none
  | unit :: rest =>
    if unit = 0x27 then some ([], rest)
    else if isForbidden unit then none
    else (literalString? rest).map fun (text, rest) => (unit :: text, rest)

/-- The unit that an escape of one letter stands for. -/
def shortEscape? (unit : CodeUnit) : Option CodeUnit :=
  if unit = 'b' then some 0x08
  else if unit = 't' then some 0x09
  else if unit = 'n' then some 0x0A
  else if unit = 'f' then some 0x0C
  else if unit = 'r' then some 0x0D
  else if unit = 0x22 || unit = 0x5C then some unit
  else none

/-- The character that hexadecimal digits name, and what comes after them. -/
def numericEscape? (width : Nat) (text : Text) : Option (Text × Text) :=
  let digits := text.take width
  let scalar := Text.hexDigitsValue digits
  if digits.length = width && digits.all CodeUnit.isHexDigit && scalar ≤ 0x10FFFF &&
      !(0xD800 ≤ scalar && scalar ≤ 0xDFFF) then
    some (Text.ofScalar scalar, text.drop width)
  else none

/-- What an escape after its backslash stands for, and what comes after it. -/
def escape? : Text → Option (Text × Text)
  | [] => none
  | unit :: rest =>
    match shortEscape? unit with
    | some meant => some ([meant], rest)
    | none =>
      if unit = 'u' then numericEscape? 4 rest
      else if unit = 'U' then numericEscape? 8 rest
      else none

/-- A string between double quotes on one line, after its opening quote. Each step takes a unit. -/
def basicString? : Nat → Text → Option (Text × Text)
  | 0, _ => none
  | _ + 1, [] => none
  | fuel + 1, unit :: rest =>
    if unit = 0x22 then some ([], rest)
    else if unit = 0x5C then do
      let (meant, rest) ← escape? rest
      let (text, rest) ← basicString? fuel rest
      return (meant ++ text, rest)
    else if isForbidden unit then none
    else (basicString? fuel rest).map fun (text, rest) => (unit :: text, rest)

/-- A text without the line break at its start, which does not belong to a string over several
lines. -/
def dropFirstBreak (text : Text) : Text :=
  let text := text.dropWhile (· == 0x0D)
  if text.head? = some 0x0A then text.drop 1 else text

/-- A unit that no string over several lines holds. -/
def isForbiddenInLines (unit : CodeUnit) : Bool :=
  isForbidden unit && unit != 0x0A && unit != 0x0D

/-- The rest of a string in three single quotes. -/
def literalLines? : Text → Option (Text × Text)
  | [] => none
  | unit :: rest =>
    if unit = 0x27 && Text.startsWith rest [0x27, 0x27] then some ([], rest.drop 2)
    else if isForbiddenInLines unit then none
    else (literalLines? rest).map fun (text, rest) => (unit :: text, rest)

/-- Blanks and line breaks at the start of a text. -/
def isLayout (unit : CodeUnit) : Bool := unit.isSpaceOrTab || unit == 0x0A || unit == 0x0D

/-- What an escape in a string over several lines stands for: a backslash at the end of a line stands
for nothing, and takes the blanks and line breaks after it with it. -/
def escapeInLines? (text : Text) : Option (Text × Text) :=
  match text with
  | [] => none
  | unit :: _ =>
    if isLayout unit then
      match dropBlanks text with
      | breaking :: _ => if isLayout breaking then some ([], text.dropWhile isLayout) else none
      | [] => none
    else escape? text

/-- The rest of a string in three double quotes. Each step takes a unit. -/
def basicLines? : Nat → Text → Option (Text × Text)
  | 0, _ => none
  | _ + 1, [] => none
  | fuel + 1, unit :: rest =>
    if unit = 0x22 && Text.startsWith rest [0x22, 0x22] then some ([], rest.drop 2)
    else if unit = 0x5C then do
      let (meant, rest) ← escapeInLines? rest
      let (text, rest) ← basicLines? fuel rest
      return (meant ++ text, rest)
    else if isForbiddenInLines unit then none
    else (basicLines? fuel rest).map fun (text, rest) => (unit :: text, rest)

/-- A string value from its first quote on. -/
def string? (text : Text) : Option (Text × Text) :=
  if Text.startsWith text [0x22, 0x22, 0x22] then
    basicLines? text.length (dropFirstBreak (text.drop 3))
  else if Text.startsWith text [0x27, 0x27, 0x27] then literalLines? (dropFirstBreak (text.drop 3))
  else
    match text with
    | [] => none
    | quote :: rest =>
      if quote = 0x22 then basicString? text.length rest
      else if quote = 0x27 then literalString? rest
      else none

/-! ### Keys -/

/-- One part of a key: a string on one line, or a word. -/
def keyPart? (text : Text) : Option (Text × Text) :=
  match text with
  | [] => none
  | unit :: rest =>
    if unit = 0x22 then basicString? text.length rest
    else if unit = 0x27 then literalString? rest
    else
      let word := text.takeWhile isBareKeyUnit
      if word.isEmpty then none else some (word, text.drop word.length)

/-- A key: parts with points between them. Blanks around the parts do not count. -/
def key? : Nat → Text → Option (List Text × Text)
  | 0, _ => none
  | fuel + 1, text => do
    let (part, rest) ← keyPart? (dropBlanks text)
    match dropBlanks rest with
    | unit :: rest =>
      if unit = '.' then
        let (parts, rest) ← key? fuel rest
        return (part :: parts, rest)
      else return ([part], unit :: rest)
    | [] => return ([part], [])

/-! ### Scalars -/

/-- A value that is no text and holds no values. Numbers and dates are kept as they are written,
without underscores. -/
inductive Scalar where
  | boolean (value : Bool)
  | integer (written : Text)
  | float (written : Text)
  /-- Infinity, or what is not a number. -/
  | special (written : Text)
  | date (written : Text)

/-! ### Numbers -/

/-- What may follow an underscore, a point or a sign of an exponent: anything that neither ends the
word nor is another such mark. -/
def mayFollowMark (isMark : CodeUnit → Bool) (text : Text) : Bool :=
  !endsWord text && !(text.head?.any isMark)

/-- The marks of decimal numbers. -/
def isDecimalMark (unit : CodeUnit) : Bool :=
  unit == '_' || unit == '.' || unit == 'e' || unit == 'E'

/-- The marks of numbers in other bases. -/
def isBaseMark (unit : CodeUnit) : Bool := unit == '_' || unit == '.'

/-- The digits at the start of a text without the underscores between them, and what comes after
them. -/
def digits? (isDigit isMark : CodeUnit → Bool) : Text → Option (Text × Text)
  | [] => some ([], [])
  | unit :: rest =>
    if isDigit unit then
      (digits? isDigit isMark rest).map fun (digits, rest) => (unit :: digits, rest)
    else if unit = '_' then
      if mayFollowMark isMark rest then digits? isDigit isMark rest else none
    else some ([], unit :: rest)

/-- Decimal digits at the start of a text. -/
def decimalDigits? (text : Text) : Option (Text × Text) :=
  digits? CodeUnit.isDigit isDecimalMark text

/-- An exponent after its letter: digits, after a sign if there is one. After a sign the digits may
be missing. -/
def exponent? : Text → Option (Text × Text)
  | [] => none
  | unit :: rest =>
    if unit.isDigit then decimalDigits? (unit :: rest)
    else if unit = '-' || unit = '+' then
      if mayFollowMark isDecimalMark rest then
        (decimalDigits? rest).map fun (digits, rest) => (unit :: digits, rest)
      else none
    else none

/-- A number with an exponent, of which all before the digits of the exponent is known. -/
def withExponent? (before : Text) (letter : CodeUnit) (text : Text) : Option (Scalar × Text) :=
  (exponent? text).map fun (exponent, rest) => (.float (before ++ letter :: exponent), rest)

/-- Whether a unit begins an exponent. -/
def isExponentLetter (unit : CodeUnit) : Bool := unit == 'e' || unit == 'E'

/-- A number with a fraction, after its point. -/
def withFraction? (whole : Text) (text : Text) : Option (Scalar × Text) :=
  if mayFollowMark isDecimalMark text then do
    let (fraction, rest) ← decimalDigits? text
    let before := whole ++ ("." : Text) ++ fraction
    match rest with
    | unit :: after =>
      if isExponentLetter unit then withExponent? before unit after
      else return (.float before, rest)
    | [] => return (.float before, rest)
  else none

/-- The rest of a number after some of its digits, of which there has to be one at least. -/
def integerRest? (before : Text) (text : Text) : Option (Scalar × Text) := do
  let (digits, rest) ← decimalDigits? text
  let whole := before ++ digits
  match rest with
  | unit :: after =>
    if isExponentLetter unit then withExponent? whole unit after
    else if unit = '.' then withFraction? whole after
    else if whole.any CodeUnit.isDigit then return (.integer whole, rest)
    else none
  | [] => if whole.any CodeUnit.isDigit then return (.integer whole, rest) else none

/-- A word at the start of a text stands for a value. -/
def word? (word : Text) (value : Scalar) (text : Text) : Option (Scalar × Text) :=
  if Text.startsWith text word then some (value, text.drop word.length) else none

/-- A number after its sign. A zero is followed by no other digit. -/
def signedNumber? (sign : CodeUnit) (text : Text) : Option (Scalar × Text) :=
  match text with
  | [] => none
  | unit :: rest =>
    if unit = 'i' then word? "inf" (.special (sign :: ("inf" : Text))) text
    else if unit = 'n' then word? "nan" (.special (sign :: ("nan" : Text))) text
    else if !mayFollowMark isDecimalMark text then none
    else if unit = '0' then
      match rest with
      | next :: after =>
        if next = '.' then withFraction? [sign, unit] after
        else if isExponentLetter next then withExponent? [sign, unit] next after
        else some (.integer [sign, unit], rest)
      | [] => some (.integer [sign, unit], [])
    else integerRest? [sign] text

/-- An integer in another base, after its two first units. -/
def basedInteger? (base : Text) (isDigit : CodeUnit → Bool) (text : Text) :
    Option (Scalar × Text) :=
  if mayFollowMark isBaseMark text then do
    let (digits, rest) ← digits? isDigit isBaseMark text
    if digits.isEmpty then none else return (.integer (base ++ digits), rest)
  else none

/-! ### Dates and times -/

/-- Two digits at the start of a text. -/
def pair? (text : Text) : Option (Text × Text) :=
  let digits := text.take 2
  if digits.length = 2 && digits.all CodeUnit.isDigit then some (digits, text.drop 2) else none

/-- What comes after a unit that has to stand at the start of a text. -/
def after? (unit : CodeUnit) : Text → Option Text
  | [] => none
  | first :: rest => if first = unit then some rest else none

/-- A fraction of a second after its point. -/
def secondFraction? (text : Text) : Option (Text × Text) :=
  let digits := text.takeWhile CodeUnit.isDigit
  if digits.isEmpty then none else some (digits, text.drop digits.length)

/-- A time zone after its sign. -/
def zone? (text : Text) : Option ((Text × Text) × Text) := do
  let (hours, rest) ← pair? text
  let rest ← after? ':' rest
  let (minutes, rest) ← pair? rest
  return ((hours, minutes), rest)

/-- A date value if it exists. -/
def dateIf (isValid : Bool) (written rest : Text) : Option (Scalar × Text) :=
  if isValid then some (.date written, rest) else none

/-- The minutes and seconds after the hour of a time and its colon. -/
def minutesAndSeconds? (text : Text) : Option (Text × Text × Text) := do
  let (minute, rest) ← pair? text
  let rest ← after? ':' rest
  let (second, rest) ← pair? rest
  return (minute, second, rest)

/-- A time of day after a date, from its hour on, with a time zone if one is there. -/
def timeAfterDate? (year month day : Text) (text : Text) : Option (Scalar × Text) := do
  let hour := text.takeWhile CodeUnit.isDigit
  if hour.length < 2 then none
  let rest ← after? ':' (text.drop hour.length)
  let (minute, second, rest) ← minutesAndSeconds? rest
  let (fraction, rest) ←
    match rest with
    | unit :: after => if unit = '.' then secondFraction? after else some ([], rest)
    | [] => some ([], rest)
  let time : TimeOfDay := ⟨hour, minute, second, fraction⟩
  let written : Text :=
    Text.join "-" [year, month, day] ++ ("T" : Text) ++ Text.join ":" [hour, minute, second] ++
      if fraction.isEmpty then [] else ("." : Text) ++ fraction
  match rest with
  | unit :: after =>
    if unit = '-' || unit = '+' then
      let (zone, rest) ← zone? after
      dateIf (isValidDateTime month day time (some zone))
        (written ++ unit :: zone.1 ++ (":" : Text) ++ zone.2) rest
    else if unit = 'Z' then dateIf (isValidDateTime month day time none) (written ++ [unit]) after
    else if endsWord rest then dateIf (isValidDateTime month day time none) written rest
    else none
  | [] => dateIf (isValidDateTime month day time none) written rest

/-- A date after its year and the first hyphen. -/
def dateAfterYear? (year : Text) (text : Text) : Option (Scalar × Text) := do
  let month := text.takeWhile CodeUnit.isDigit
  if month.length < 2 then none
  let rest ← after? '-' (text.drop month.length)
  let day := rest.takeWhile CodeUnit.isDigit
  let rest := rest.drop day.length
  let written := Text.join "-" [year, month, day]
  match rest with
  | unit :: after =>
    if unit = 'T' || unit = 0x20 then
      if day.length < 2 then none
      else if endsWord after then dateIf (isValidDate year month day) written after
      else timeAfterDate? year month day after
    else if endsWord rest then dateIf (isValidDate year month day) written rest
    else none
  | [] => dateIf (isValidDate year month day) written rest

/-- A time of day alone after its hour and the colon. Without a fraction the unit after the seconds
is taken too. -/
def timeAfterHour? (hour : Text) (text : Text) : Option (Scalar × Text) := do
  if hour.length < 2 then none
  let (minute, second, rest) ← minutesAndSeconds? text
  let written := Text.join ":" [hour, minute, second]
  match rest with
  | unit :: after =>
    if unit = '.' then
      let (fraction, rest) ← secondFraction? after
      if endsWord rest then
        dateIf (TimeOfDay.isValid ⟨hour, minute, second, fraction⟩)
          (written ++ unit :: fraction) rest
      else none
    else dateIf (TimeOfDay.isValid ⟨hour, minute, second, []⟩) written after
  | [] => dateIf (TimeOfDay.isValid ⟨hour, minute, second, []⟩) written []

/-- A number, date or time that begins with a digit. A zero that another digit follows begins a year
or an hour. -/
def numberOrDate? (text : Text) : Option (Scalar × Text) :=
  let lead := (text.take 4).takeWhile CodeUnit.isDigit
  let rest := text.drop lead.length
  match lead with
  | [] => none
  | first :: more =>
    if first = '0' then
      if more.isEmpty then
        match rest with
        | unit :: after =>
          if unit = 'b' then basedInteger? "0b" (fun unit => unit == '0' || unit == '1') after
          else if unit = 'o' then basedInteger? "0o" (fun unit => 0x30 ≤ unit && unit ≤ 0x37) after
          else if unit = 'x' then basedInteger? "0x" CodeUnit.isHexDigit after
          else if unit = '.' then withFraction? lead after
          else some (.integer lead, rest)
        | [] => some (.integer lead, rest)
      else
        match rest with
        | unit :: after =>
          if lead.length < 4 then if unit = ':' then timeAfterHour? lead after else none
          else if unit = '-' then dateAfterYear? lead after
          else none
        | [] => none
    else
      match rest with
      | unit :: after =>
        if unit = '-' then if lead.length = 4 then dateAfterYear? lead after else none
        else if unit = ':' then timeAfterHour? lead after
        else integerRest? lead rest
      | [] => some (.integer lead, rest)

/-! ### Values -/

/-- A value of a document that is being read. -/
abbrev Value := Draft.Value Scalar

/-- The values of a table that is being read. -/
abbrev Fields := Draft.Table Scalar

/-- The types of values, of which all items of an array share one. -/
inductive ItemType where
  | text
  | boolean
  | integer
  | float
  | special
  | date
  | array
  | table
  deriving DecidableEq, Repr

/-- The type of a value. -/
def typeOf : Value → ItemType
  | .text _ => .text
  | .scalar (.boolean _) => .boolean
  | .scalar (.integer _) => .integer
  | .scalar (.float _) => .float
  | .scalar (.special _) => .special
  | .scalar (.date _) => .date
  | .array _ => .array
  | .inlineTable _ => .table
  | .table _ _ => .table
  | .tables _ => .array

/-- The items of an array so far have the type of a further one. -/
def fitsArray (items : List Value) (item : Value) : Bool :=
  items.head?.all fun first => typeOf first = typeOf item

/-- A scalar as a value, and what comes after it. -/
def ofScalar? (read : Option (Scalar × Text)) : Option (Value × Text) :=
  read.map fun (value, rest) => (.scalar value, rest)

mutual

/-- A value at the start of a text, and what comes after it. The first argument bounds how deep the
reading goes. -/
def value? : Nat → Text → Option (Value × Text)
  | 0, _ => none
  | depth + 1, text =>
    match text with
    | [] => none
    | unit :: rest =>
      if unit = 0x22 || unit = 0x27 then
        (string? text).map fun (content, rest) => (.text content, rest)
      else if unit = '-' || unit = '+' then ofScalar? (signedNumber? unit rest)
      else if unit = 'i' then ofScalar? (word? "inf" (.special "inf") text)
      else if unit = 'n' then ofScalar? (word? "nan" (.special "nan") text)
      else if unit.isDigit then ofScalar? (numberOrDate? text)
      else if unit = 't' then ofScalar? (word? "true" (.boolean true) text)
      else if unit = 'f' then ofScalar? (word? "false" (.boolean false) text)
      else if unit = '[' then
        (items? depth [] rest).map fun (items, rest) => (.array items.reverse, rest)
      else if unit = '\x7b' then
        (inlineFields? depth [] rest).map fun (fields, rest) => (.inlineTable fields, rest)
      else none

/-- The items of an array up to its closing bracket, after those already read, the last first. A
comma may stand before the bracket. -/
def items? : Nat → List Value → Text → Option (List Value × Text)
  | 0, _, _ => none
  | depth + 1, items, text =>
    match dropTrivia false text with
    | [] => none
    | unit :: rest =>
      if unit = ']' then some (items, rest)
      else
        match value? depth (unit :: rest) with
        | none => none
        | some (item, rest) =>
          if fitsArray items item then
            match dropTrivia false rest with
            | [] => none
            | unit :: rest =>
              if unit = ',' then items? depth (item :: items) rest
              else if unit = ']' then some (item :: items, rest)
              else none
          else none

/-- The fields of an inline table up to its closing brace, after those already read. It stands on
one line, and a comma may stand before the brace. -/
def inlineFields? : Nat → Fields → Text → Option (Fields × Text)
  | 0, _, _ => none
  | depth + 1, fields, text =>
    match dropBlanks text with
    | [] => none
    | unit :: rest =>
      if unit = '\x7d' then some (fields, rest)
      else
        match assignment? depth (unit :: rest) with
        | none => none
        | some (key, value, rest) =>
          match fields.define? value key with
          | none => none
          | some fields =>
            match dropBlanks rest with
            | [] => none
            | unit :: rest =>
              if unit = ',' then inlineFields? depth fields rest
              else if unit = '\x7d' then some (fields, rest)
              else none

/-- A key, an equals sign and a value. -/
def assignment? : Nat → Text → Option (List Text × Value × Text)
  | 0, _ => none
  | depth + 1, text =>
    match key? (text.length + 1) text with
    | none => none
    | some (key, rest) =>
      match after? '=' rest with
      | none => none
      | some rest =>
        match value? depth (dropBlanks rest) with
        | none => none
        | some (value, rest) => some (key, value, rest)

end

/-! ### Documents -/

/-- Reads a header after its opening bracket: declares its table, or opens a further one. -/
def readHeader? (draft : Draft Scalar) (text : Text) : Option (Draft Scalar × Text) := do
  let double := text.head? = some ('[' : CodeUnit)
  let (key, rest) ← key? (text.length + 1) (if double then text.drop 1 else text)
  let rest ← after? ']' rest
  let rest ← if double then after? ']' rest else some rest
  let draft ← draft.header? double key
  return (draft, rest)

/-- A unit that begins a line with a key. -/
def beginsKey (unit : CodeUnit) : Bool := isBareKeyUnit unit || unit == 0x22 || unit == 0x27

/-- Reads a document line by line. Each step takes a unit. -/
def read? : Nat → Draft Scalar → Text → Option Fields
  | 0, _, _ => none
  | fuel + 1, draft, text =>
    match dropTrivia false text with
    | [] => some draft.fields
    | unit :: rest =>
      if unit = '[' then do
        let (draft, rest) ← readHeader? draft rest
        let rest ← lineEnd? rest
        read? fuel draft rest
      else if beginsKey unit then do
        let (key, value, rest) ← assignment? (2 * text.length + 4) (unit :: rest)
        let draft ← draft.change? fun fields => fields.define? value key
        let rest ← lineEnd? rest
        read? fuel draft rest
      else none

/-- The fields of a document, or nothing for a text that is none. -/
def parse? (content : Text) : Option (Table Scalar) :=
  (read? (content.length + 1) {} content).map Draft.plainFields

end SourceLint.External.Toml
