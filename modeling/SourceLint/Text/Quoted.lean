/-
Quoted form of a text: in double quotes, with a backslash before a quote and before a backslash, and
an escape for each control character and each surrogate without its partner. All other units stand for
themselves.
-/
import SourceLint.Text

namespace SourceLint.Text

/-- The hexadecimal digit of a number below sixteen. -/
def hexDigit (value : Nat) : CodeUnit :=
  if value < 10 then (0x30 + value).toUInt16 else (0x57 + value).toUInt16

/-- The four hexadecimal digits of a unit. -/
def hexDigits (unit : CodeUnit) : Text :=
  [hexDigit (unit.toNat / 0x1000), hexDigit (unit.toNat / 0x100 % 16),
    hexDigit (unit.toNat / 16 % 16), hexDigit (unit.toNat % 16)]

/-- The written form of one unit between the quotes, if it is no half of a surrogate pair. -/
def escapeUnit (unit : CodeUnit) : Text :=
  if unit = 0x22 then "\\\""
  else if unit = 0x5C then "\\\\"
  else if unit = 0x08 then "\\b"
  else if unit = 0x09 then "\\t"
  else if unit = 0x0A then "\\n"
  else if unit = 0x0C then "\\f"
  else if unit = 0x0D then "\\r"
  else if unit < 0x20 || unit.isHighSurrogate || unit.isLowSurrogate then "\\u" ++ hexDigits unit
  else [unit]

/-- The written form of a text between the quotes. -/
def escaped : Text → Text
  | [] => []
  | [unit] => escapeUnit unit
  | unit :: next :: rest =>
    if unit.isHighSurrogate && next.isLowSurrogate then unit :: next :: escaped rest
    else escapeUnit unit ++ escaped (next :: rest)

/-- A text in double quotes. -/
def quote (text : Text) : Text := "\"" ++ text.escaped ++ "\""

end SourceLint.Text
