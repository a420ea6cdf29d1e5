/-
This file holds the texts that the linter reads and writes. A text is the list of its 16-bit code
units, because every position, length and cut in this library is counted in such units: a character
beyond the basic plane has two of them, and a span may begin or end between the two. `String` stays
at the edges, for literals and for printing.
-/

namespace SourceLint

/-- One 16-bit unit of a text. -/
abbrev CodeUnit := UInt16

/-- A text as the list of its code units. -/
abbrev Text := List CodeUnit

/-- The unit of a character of the basic plane; all character literals below are such. -/
def CodeUnit.ofChar (character : Char) : CodeUnit := character.val.toUInt16

instance : Coe Char CodeUnit := ⟨CodeUnit.ofChar⟩

/-- The first half of a surrogate pair. -/
def CodeUnit.isHighSurrogate (unit : CodeUnit) : Bool := 0xD800 ≤ unit && unit ≤ 0xDBFF

/-- The second half of a surrogate pair. -/
def CodeUnit.isLowSurrogate (unit : CodeUnit) : Bool := 0xDC00 ≤ unit && unit ≤ 0xDFFF

/-- An ASCII decimal digit. -/
def CodeUnit.isDigit (unit : CodeUnit) : Bool := 0x30 ≤ unit && unit ≤ 0x39

/-- An ASCII hexadecimal digit. -/
def CodeUnit.isHexDigit (unit : CodeUnit) : Bool :=
  unit.isDigit || (0x41 ≤ unit && unit ≤ 0x46) || (0x61 ≤ unit && unit ≤ 0x66)

/-- An ASCII letter or digit. -/
def CodeUnit.isAlphanumeric (unit : CodeUnit) : Bool :=
  unit.isDigit || (0x41 ≤ unit && unit ≤ 0x5A) || (0x61 ≤ unit && unit ≤ 0x7A)

/-- An ASCII letter, a digit or the underscore. -/
def CodeUnit.isWordUnit (unit : CodeUnit) : Bool := unit.isAlphanumeric || unit == 0x5F

namespace Text

/-- The units of a Unicode scalar value, given as a number: one below 10000, else a pair. -/
def ofScalar (scalar : Nat) : Text :=
  if scalar < 0x10000 then [scalar.toUInt16]
  else
    [(0xD800 + (scalar - 0x10000) / 0x400).toUInt16, (0xDC00 + (scalar - 0x10000) % 0x400).toUInt16]

/-- The units of a string. -/
def ofString (string : String) : Text := string.toList.flatMap fun character => ofScalar character.toNat

instance : Coe String Text := ⟨ofString⟩

/-- The scalar value of a surrogate pair. -/
def pairScalar (high low : CodeUnit) : Nat :=
  0x10000 + (high.toNat - 0xD800) * 0x400 + (low.toNat - 0xDC00)

/-- The scalar values of a text, from the left; a surrogate without its partner counts as the
replacement character. -/
def scalars : Text → List Nat
  | [] => []
  | [unit] => [if unit.isHighSurrogate || unit.isLowSurrogate then 0xFFFD else unit.toNat]
  | unit :: next :: rest =>
    if unit.isHighSurrogate then
      if next.isLowSurrogate then pairScalar unit next :: scalars rest
      else 0xFFFD :: scalars (next :: rest)
    else if unit.isLowSurrogate then 0xFFFD :: scalars (next :: rest)
    else unit.toNat :: scalars (next :: rest)

/-- The string with the characters of a text. -/
def toString (text : Text) : String := String.ofList (text.scalars.map Char.ofNat)

/-- The part of a text from `start` up to `stop`. Positions beyond the end cut nothing off, and a
stop before its start gives the empty text. -/
def slice (text : Text) (start stop : Nat) : Text := (text.drop start).take (stop - start)

/-- Whether a text begins with a given one. -/
def startsWith (text beginning : Text) : Bool := beginning.isPrefixOf text

/-- Whether a text ends with a given one. -/
def endsWith (text ending : Text) : Bool := ending.isSuffixOf text

/-- What comes after a given beginning, if the text has it. -/
def after? (beginning text : Text) : Option Text :=
  if startsWith text beginning then some (text.drop beginning.length) else none

/-- The texts between the occurrences of a separator unit; the empty text has one empty part. -/
def splitAt (separator : CodeUnit) : Text → List Text
  | [] => [[]]
  | unit :: rest =>
    if unit = separator then [] :: splitAt separator rest
    else
      match splitAt separator rest with
      | part :: parts => (unit :: part) :: parts
      | [] => [[unit]]

/-- The texts one after another, with a separator between neighbours. -/
def join (separator : Text) : List Text → Text
  | [] => []
  | [text] => text
  | text :: rest => text ++ separator ++ join separator rest

/-- The order of texts by their units, a proper beginning first. -/
def precedes : Text → Text → Bool
  | [], _ => true
  | _ :: _, [] => false
  | left :: lefts, right :: rights =>
    if left < right then true else if right < left then false else precedes lefts rights

/-- The decimal digits of a natural number. -/
def ofNat (number : Nat) : Text := (Nat.toDigits 10 number).map CodeUnit.ofChar

/-- The decimal digits of an integer, after a minus sign if it is negative. -/
def ofInt : Int → Text
  | .ofNat number => ofNat number
  | .negSucc number => '-' :: ofNat (number + 1)

/-- The number that decimal digits stand for; other units count as their distance from zero. -/
def digitsValue (digits : Text) : Nat :=
  digits.foldl (fun value digit => value * 10 + (digit.toNat - 0x30)) 0

/-- The value of one hexadecimal digit. -/
def hexValue (unit : CodeUnit) : Nat :=
  if unit.isDigit then unit.toNat - 0x30
  else if unit < 0x61 then unit.toNat - 0x37 else unit.toNat - 0x57

/-- The number that hexadecimal digits stand for. -/
def hexDigitsValue (digits : Text) : Nat :=
  digits.foldl (fun value digit => value * 16 + hexValue digit) 0

end Text

end SourceLint
