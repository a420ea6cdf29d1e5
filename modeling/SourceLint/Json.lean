/-
JSON values, their reading and their writing. A number is kept as it is written, since nothing here
calculates with one. The fields of an object keep the order in which their names first appear, and a
name that appears again takes the later value.
-/
import SourceLint.Text.Quoted

namespace SourceLint

/-- A JSON value. -/
inductive Json where
  | null
  | boolean (value : Bool)
  | number (written : Text)
  | string (text : Text)
  | array (items : List Json)
  | object (fields : List (Text × Json))
  deriving Inhabited

namespace Json

/-! ### Looking in -/

/-- The fields with a value put under a name: in its old place, or at the end. -/
def setField (name : Text) (value : Json) : List (Text × Json) → List (Text × Json)
  | [] => [(name, value)]
  | (other, old) :: rest =>
    if other = name then (name, value) :: rest else (other, old) :: setField name value rest

/-- The value of a field. -/
def field? (name : Text) : Json → Option Json
  | object fields => (fields.find? fun field => field.1 = name).map Prod.snd
  | _ => none

/-! ### Reading -/

/-- A unit that may stand between tokens. -/
def isLayout (unit : CodeUnit) : Bool :=
  unit == 0x20 || unit == 0x09 || unit == 0x0A || unit == 0x0D

/-- A text without the layout at its start. -/
def skipLayout (text : Text) : Text := text.dropWhile isLayout

/-- The unit that a short escape stands for. -/
def shortEscape? (unit : CodeUnit) : Option CodeUnit :=
  if unit = '"' then some 0x22
  else if unit = '\\' then some 0x5C
  else if unit = '/' then some 0x2F
  else if unit = 'b' then some 0x08
  else if unit = 'f' then some 0x0C
  else if unit = 'n' then some 0x0A
  else if unit = 'r' then some 0x0D
  else if unit = 't' then some 0x09
  else none

/-- The text up to the closing quote, and what comes after the quote. -/
def stringBody? : Text → Option (Text × Text)
  | [] => none
  | unit :: rest =>
    if unit = '"' then some ([], rest)
    else if unit < 0x20 then none
    else if unit = '\\' then
      match rest with
      | [] => none
      | escape :: rest =>
        if escape = 'u' then
          match rest with
          | first :: second :: third :: fourth :: rest =>
            if [first, second, third, fourth].all CodeUnit.isHexDigit then
              (stringBody? rest).map fun (body, rest) =>
                ((Text.hexDigitsValue [first, second, third, fourth]).toUInt16 :: body, rest)
            else none
          | _ => none
        else
          match shortEscape? escape with
          | some unit => (stringBody? rest).map fun (body, rest) => (unit :: body, rest)
          | none => none
    else (stringBody? rest).map fun (body, rest) => (unit :: body, rest)

/-- At least one digit, and what comes after the digits. -/
def digits? (text : Text) : Option (Text × Text) :=
  let digits := text.takeWhile CodeUnit.isDigit
  if digits.isEmpty then none else some (digits, text.dropWhile CodeUnit.isDigit)

/-- An optional exponent, and what comes after it. -/
def exponent? : Text → Option (Text × Text)
  | letter :: sign :: rest =>
    if letter = 'e' || letter = 'E' then
      if sign = '+' || sign = '-' then
        (digits? rest).map fun (digits, rest) => (letter :: sign :: digits, rest)
      else (digits? (sign :: rest)).map fun (digits, rest) => (letter :: digits, rest)
    else some ([], letter :: sign :: rest)
  | [letter] => if letter = 'e' || letter = 'E' then none else some ([], [letter])
  | [] => some ([], [])

/-- An optional fraction, and what comes after it. -/
def fraction? : Text → Option (Text × Text)
  | point :: rest =>
    if point = '.' then (digits? rest).map fun (digits, rest) => (point :: digits, rest)
    else some ([], point :: rest)
  | [] => some ([], [])

/-- The digits of the whole part, which begin with zero only if that is all, and what follows. -/
def whole? (text : Text) : Option (Text × Text) :=
  match text with
  | unit :: rest => if unit = '0' then some ([unit], rest) else digits? text
  | [] => none

/-- A number as it is written, and what comes after it. -/
def number? (text : Text) : Option (Text × Text) := do
  let sign : Text := if text.head? == some ('-' : CodeUnit) then "-" else []
  let (whole, rest) ← whole? (text.drop sign.length)
  let (fraction, rest) ← fraction? rest
  let (exponent, rest) ← exponent? rest
  return (sign ++ whole ++ fraction ++ exponent, rest)

/-- A word at the start of a text stands for a value. -/
def literal? (word : Text) (value : Json) (text : Text) : Option (Json × Text) :=
  if text.startsWith word then some (value, text.drop word.length) else none

mutual

/-- A value at the start of a text, and what comes after it. The first argument bounds how deep the
reading goes. -/
def value? : Nat → Text → Option (Json × Text)
  | 0, _ => none
  | depth + 1, text =>
    match skipLayout text with
    | [] => none
    | unit :: rest =>
      if unit = '"' then (stringBody? rest).map fun (body, rest) => (string body, rest)
      else if unit = '[' then
        match skipLayout rest with
        | close :: after =>
          if close = ']' then some (array [], after)
          else (items? depth rest).map fun (items, rest) => (array items, rest)
        | [] => none
      else if unit = '\x7b' then
        match skipLayout rest with
        | close :: after =>
          if close = '\x7d' then some (object [], after)
          else (fields? depth [] rest).map fun (fields, rest) => (object fields, rest)
        | [] => none
      else if unit = 't' then literal? "true" (boolean true) (unit :: rest)
      else if unit = 'f' then literal? "false" (boolean false) (unit :: rest)
      else if unit = 'n' then literal? "null" null (unit :: rest)
      else (number? (unit :: rest)).map fun (written, rest) => (number written, rest)

/-- The items of an array up to its closing bracket. -/
def items? : Nat → Text → Option (List Json × Text)
  | 0, _ => none
  | depth + 1, text =>
    match value? depth text with
    | none => none
    | some (item, rest) =>
      match skipLayout rest with
      | unit :: rest =>
        if unit = ',' then (items? depth rest).map fun (items, rest) => (item :: items, rest)
        else if unit = ']' then some ([item], rest)
        else none
      | [] => none

/-- The fields of an object up to its closing brace, after those already read. -/
def fields? : Nat → List (Text × Json) → Text → Option (List (Text × Json) × Text)
  | 0, _, _ => none
  | depth + 1, known, text =>
    match skipLayout text with
    | quote :: rest =>
      if quote = '"' then
        match stringBody? rest with
        | none => none
        | some (name, rest) =>
          match skipLayout rest with
          | colon :: rest =>
            if colon = ':' then
              match value? depth rest with
              | none => none
              | some (value, rest) =>
                match skipLayout rest with
                | unit :: rest =>
                  if unit = ',' then fields? depth (setField name value known) rest
                  else if unit = '\x7d' then some (setField name value known, rest)
                  else none
                | [] => none
            else none
          | [] => none
      else none
    | [] => none

end

/-- The value that a text is written as, with nothing but layout around it. -/
def parse? (text : Text) : Option Json :=
  match value? (2 * text.length + 2) text with
  | some (value, rest) => if (skipLayout rest).isEmpty then some value else none
  | none => none

/-! ### Writing -/

mutual

/-- The written form of a value, without layout. -/
def render : Json → Text
  | null => "null"
  | boolean value => if value then "true" else "false"
  | number written => written
  | string text => text.quote
  | array items => "[" ++ renderItems items ++ "]"
  | object fields => "\x7b" ++ renderFields fields ++ "\x7d"

/-- The items of an array with commas between them. -/
def renderItems : List Json → Text
  | [] => []
  | [item] => render item
  | item :: next :: rest => render item ++ "," ++ renderItems (next :: rest)

/-- The fields of an object with commas between them. -/
def renderFields : List (Text × Json) → Text
  | [] => []
  | [(name, value)] => name.quote ++ ":" ++ render value
  | (name, value) :: next :: rest =>
    name.quote ++ ":" ++ render value ++ "," ++ renderFields (next :: rest)

end

end Json

end SourceLint
