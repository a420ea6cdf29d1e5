/-
White space: the set of units that separate words, and the trimming of a text on either side. The
set holds the ASCII blanks, the Unicode space separators, the two Unicode line separators and the
byte order mark; the next-line control 85 and the zero-width space 200B are not in it.
-/
import SourceLint.Text

namespace SourceLint

/-- A unit of white space. -/
def CodeUnit.isBlank (unit : CodeUnit) : Bool :=
  (0x09 ≤ unit && unit ≤ 0x0D) || unit == 0x20 || unit == 0xA0 || unit == 0x1680 ||
    (0x2000 ≤ unit && unit ≤ 0x200A) || unit == 0x2028 || unit == 0x2029 || unit == 0x202F ||
    unit == 0x205F || unit == 0x3000 || unit == 0xFEFF

/-- A unit that ends a line of text for a pattern that matches within one line. -/
def CodeUnit.isLineTerminator (unit : CodeUnit) : Bool :=
  unit == 0x0A || unit == 0x0D || unit == 0x2028 || unit == 0x2029

/-- A space or a tab. -/
def CodeUnit.isSpaceOrTab (unit : CodeUnit) : Bool := unit == 0x20 || unit == 0x09

namespace Text

/-- A text without the white space at its start. -/
def trimStart (text : Text) : Text := text.dropWhile CodeUnit.isBlank

/-- A text without the white space at its end. -/
def trimEnd (text : Text) : Text := (text.reverse.dropWhile CodeUnit.isBlank).reverse

/-- A text without the white space on both sides. -/
def trim (text : Text) : Text := trimEnd (trimStart text)

end Text

end SourceLint
