/-
How a terminal is told to set a text off. This stands in for the library that the program is linked
with when its reports are tried out; no theorem is about it. A styled text closes its style before each
line break and opens it again after it, and an inner close of the same style is followed by a new
opening, so that the whole text keeps the style. The empty text stays empty.
-/
import SourceLint.Report

namespace SourceLint.External

/-- A way to set a text off, by the escapes that open and close it. -/
structure Emphasis where
  opening : Text
  closing : Text

namespace Emphasis

/-- The terminal escape with a number. -/
def escape (number : Text) : Text := "\x1B[" ++ number ++ "m"

/-- A text with the opening after each closing in it; `skipped` units belong to a closing. -/
def reopened (emphasis : Emphasis) : Nat → Text → Text
  | _, [] => []
  | 1, unit :: rest => unit :: (emphasis.opening ++ reopened emphasis 0 rest)
  | skipped + 2, unit :: rest => unit :: reopened emphasis (skipped + 1) rest
  | 0, unit :: rest =>
    if Text.startsWith (unit :: rest) emphasis.closing then
      if emphasis.closing.length = 1 then
        unit :: (emphasis.opening ++ reopened emphasis 0 rest)
      else unit :: reopened emphasis (emphasis.closing.length - 1) rest
    else unit :: reopened emphasis 0 rest

/-- A text with the style closed around each line break. -/
def brokenAtLines (emphasis : Emphasis) : Text → Text
  | [] => []
  | unit :: rest =>
    if unit = 0x0A then
      emphasis.closing ++ (unit :: (emphasis.opening ++ brokenAtLines emphasis rest))
    else if unit = 0x0D && rest.head? == some 0x0A then
      match rest with
      | [] => [unit]
      | next :: rest =>
        emphasis.closing ++ (unit :: next :: (emphasis.opening ++ brokenAtLines emphasis rest))
    else unit :: brokenAtLines emphasis rest

/-- A text set off. -/
def set (emphasis : Emphasis) (text : Text) : Text :=
  if text.isEmpty then []
  else emphasis.opening ++ emphasis.brokenAtLines (emphasis.reopened 0 text) ++ emphasis.closing

end Emphasis

/-- The style of a terminal: bold, red and green by their escapes. -/
def terminalStyle : Style where
  bold := (Emphasis.mk (Emphasis.escape "1") (Emphasis.escape "22")).set
  red := (Emphasis.mk (Emphasis.escape "31") (Emphasis.escape "39")).set
  green := (Emphasis.mk (Emphasis.escape "32") (Emphasis.escape "39")).set

end SourceLint.External
