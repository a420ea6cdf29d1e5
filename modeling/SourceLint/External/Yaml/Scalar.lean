/-
The texts that YAML scalars stand for. A line break within a plain or quoted scalar is folded: one
break becomes a space, and of several the first is dropped. Double-quoted scalars have escapes.
Block scalars keep their line breaks or fold them, without the indent of their first line.
-/
import SourceLint.External.Yaml.Outline

namespace SourceLint.External.Yaml

/-! ### Folding -/

/-- A text without the spaces and tabs at its start. -/
def dropBlanks (text : Text) : Text := text.dropWhile CodeUnit.isSpaceOrTab

/-- A text without the spaces and tabs at its end. -/
def dropBlanksRight (text : Text) : Text := (text.reverse.dropWhile CodeUnit.isSpaceOrTab).reverse

/-- A line before a line feed without the carriage return that belongs to the break, and without the
blanks at its end. -/
def lineContent (line : Text) : Text :=
  dropBlanksRight (if line.getLast? = some 0x0D then line.dropLast else line)

/-- The lines after the first, folded; `joint` is what stands before the next words. -/
def foldFurther (joint : CodeUnit) : List Text → Text
  | [] => []
  | [last] => joint :: dropBlanks last
  | line :: rest =>
    match lineContent (dropBlanks line) with
    | [] => if joint = 0x0A then 0x0A :: foldFurther 0x0A rest else foldFurther 0x0A rest
    | words => joint :: words ++ foldFurther 0x20 rest

/-- A text with its line breaks folded. -/
def foldLines (text : Text) : Text :=
  match Text.splitAt 0x0A text with
  | first :: next :: rest => lineContent first ++ foldFurther 0x20 (next :: rest)
  | _ => text

/-! ### Plain and quoted scalars -/

/-- The units that no plain scalar begins with. -/
def cannotBeginPlain (unit : CodeUnit) : Bool := ("\t,%|>@\x60" : Text).contains unit

/-- The text of a plain scalar. -/
def plainText? (text : Text) : Option Text :=
  if text.head?.any cannotBeginPlain then none else some (foldLines text)

/-- Pairs of quotes made single. -/
def mergeQuotes : Text → Text
  | [] => []
  | [unit] => [unit]
  | unit :: next :: rest =>
    if unit = 0x27 && next = 0x27 then 0x27 :: mergeQuotes rest
    else unit :: mergeQuotes (next :: rest)

/-- What stands between the quotes of a quoted scalar; its first and last unit are the quotes. -/
def betweenQuotes? (quote : CodeUnit) (text : Text) : Option Text :=
  if text.length > 1 && text.getLast? == some quote then some (text.drop 1).dropLast else none

/-- The text of a single-quoted scalar, quotes included. -/
def singleQuotedText? (text : Text) : Option Text :=
  (betweenQuotes? 0x27 text).map fun inner => mergeQuotes (foldLines inner)

/-- The unit that an escape of one letter stands for. -/
def shortEscape? (unit : CodeUnit) : Option CodeUnit :=
  if unit = '0' then some 0x00
  else if unit = 'a' then some 0x07
  else if unit = 'b' then some 0x08
  else if unit = 'e' then some 0x1B
  else if unit = 'f' then some 0x0C
  else if unit = 'n' then some 0x0A
  else if unit = 'r' then some 0x0D
  else if unit = 't' then some 0x09
  else if unit = 'v' then some 0x0B
  else if unit = 'N' then some 0x85
  else if unit = '_' then some 0xA0
  else if unit = 'L' then some 0x2028
  else if unit = 'P' then some 0x2029
  else if unit = 0x20 || unit = 0x22 || unit = '/' || unit = 0x5C || unit = 0x09 then some unit
  else none

/-- How many digits a numeric escape has. -/
def escapeWidth? (unit : CodeUnit) : Option Nat :=
  if unit = 'x' then some 2 else if unit = 'u' then some 4 else if unit = 'U' then some 8 else none

/-- Blanks and whole line breaks at the start of a text, counted: how many units there are, and how
many of them are line feeds. -/
def foldedGap : Text → Nat × Nat
  | [] => (0, 0)
  | unit :: rest =>
    if unit = 0x0A then
      let (length, breaks) := foldedGap rest
      (length + 1, breaks + 1)
    else if unit.isSpaceOrTab || (unit = 0x0D && rest.head? == some 0x0A) then
      let (length, breaks) := foldedGap rest
      (length + 1, breaks)
    else (0, 0)

/-- The text of a double-quoted scalar after its opening quote. The last unit is the closing quote;
an escape may still take it as its letter. -/
def unescape : Nat → Text → Option Text
  | 0, _ => none
  | _ + 1, [] => some []
  | _ + 1, [_] => some []
  | fuel + 1, unit :: rest =>
    if unit = 0x0D && rest.head? == some 0x0A then unescape fuel rest
    else if unit = 0x0A then
      let (length, breaks) := foldedGap rest
      let fold : Text := if breaks = 0 then [0x20] else List.replicate breaks 0x0A
      (unescape fuel (rest.drop length)).map (fold ++ ·)
    else if unit = 0x5C then
      match rest with
      | [] => some []
      | letter :: after =>
        match shortEscape? letter with
        | some meant => (unescape fuel after).map (meant :: ·)
        | none =>
          if letter = 0x0A then unescape fuel (dropBlanks after)
          else if letter = 0x0D && after.head? == some 0x0A then
            unescape fuel (dropBlanks (after.drop 1))
          else
            match escapeWidth? letter with
            | none => none
            | some width =>
              let digits := after.take width
              if digits.length = width && digits.all CodeUnit.isHexDigit &&
                  Text.hexDigitsValue digits ≤ 0x10FFFF then
                (unescape fuel (after.drop width)).map
                  (Text.ofScalar (Text.hexDigitsValue digits) ++ ·)
              else none
    else if unit.isSpaceOrTab then
      let blanks := unit :: rest.takeWhile CodeUnit.isSpaceOrTab
      let after := dropBlanks rest
      let atBreak := after.head? == some 0x0A || Text.startsWith after [0x0D, 0x0A]
      (unescape fuel after).map fun text => if atBreak then text else blanks ++ text
    else (unescape fuel rest).map (unit :: ·)

/-- The text of a double-quoted scalar, quotes included. -/
def doubleQuotedText? (text : Text) : Option Text :=
  (betweenQuotes? 0x22 text).bind fun _ => unescape text.length (text.drop 1)

/-! ### Block scalars -/

/-- What becomes of the line breaks at the end of a block scalar. -/
inductive Chomping where
  | clip
  | strip
  | keep
  deriving DecidableEq, Repr

/-- The header of a block scalar. An indent of zero is not given. -/
structure BlockStyle where
  folded : Bool
  indent : Nat := 0
  chomping : Chomping := .clip

/-- The header signs after the first; each of the two kinds stands at most once. -/
def blockSigns? : BlockStyle → Text → Option BlockStyle
  | style, [] => some style
  | style, unit :: rest =>
    if style.chomping = .clip && (unit = '-' || unit = '+') then
      blockSigns? { style with chomping := if unit = '-' then .strip else .keep } rest
    else if style.indent = 0 && 0x31 ≤ unit && unit ≤ 0x39 then
      blockSigns? { style with indent := unit.toNat - 0x30 } rest
    else none

/-- The header of a block scalar from its text. -/
def blockStyle? : Text → Option BlockStyle
  | [] => none
  | unit :: rest => blockSigns? { folded := unit = '>' } rest

/-- A line of a block scalar: how many spaces it begins with, and the rest. -/
structure BlockLine where
  indent : Nat
  content : Text

/-- A line without words. -/
def BlockLine.isEmpty (line : BlockLine) : Bool := line.content == [] || line.content == [0x0D]

/-- The lines of a block scalar; the break at its end leaves an empty last line. -/
def blockLines (text : Text) : List BlockLine :=
  if text.isEmpty then []
  else
    (Text.splitAt 0x0A text).map fun line =>
      let content := line.dropWhile (· == 0x20)
      ⟨line.length - content.length, content⟩

/-- The spaces of a line beyond the indent of its scalar. -/
def BlockLine.beyond (line : BlockLine) (indent : Nat) : Text :=
  List.replicate (line.indent - indent) 0x20

/-- The folding of a block scalar: what stands before the next line, and whether the last line was
indented more than the first. -/
structure Folding where
  joint : Text := []
  deep : Bool := false

/-- The lines of a block scalar joined, from the first with words on. A line that is indented less
is refused. -/
def joinBlock? (folded : Bool) (indent : Nat) : Folding → List BlockLine → Option Text
  | _, [] => some []
  | folding, line :: rest =>
    let content :=
      if line.content.getLast? = some 0x0D then line.content.dropLast else line.content
    if !content.isEmpty && line.indent < indent then none
    else if !folded then
      (joinBlock? folded indent { joint := [0x0A] } rest).map fun text =>
        folding.joint ++ line.beyond indent ++ content ++ text
    else if line.indent > indent || content.head? = some 0x09 then
      let joint : Text :=
        if folding.joint = [0x20] then [0x0A]
        else if !folding.deep && folding.joint = [0x0A] then [0x0A, 0x0A]
        else folding.joint
      (joinBlock? folded indent { joint := [0x0A], deep := true } rest).map fun text =>
        joint ++ line.beyond indent ++ content ++ text
    else if content.isEmpty then
      if folding.joint = [0x0A] then
        (joinBlock? folded indent folding rest).map fun text => 0x0A :: text
      else joinBlock? folded indent { folding with joint := [0x0A] } rest
    else
      (joinBlock? folded indent { joint := [0x20] } rest).map fun text =>
        folding.joint ++ content ++ text

/-- The indent of a block scalar: given by its header or found at its first line with words, and
never less than that of the empty lines before. -/
def blockIndent? (style : BlockStyle) : Nat → List BlockLine → Option Nat
  | indent, [] => some indent
  | indent, line :: rest =>
    if line.isEmpty then
      blockIndent? style
        (if style.indent = 0 && line.indent > indent then line.indent else indent) rest
    else if line.indent < indent then none
    else some (if style.indent = 0 then line.indent else indent)

/-- How many lines of a block scalar are its content: those up to the last with words or with more
spaces than the indent. -/
def contentLines (indent : Nat) (lines : List BlockLine) : Nat :=
  (lines.reverse.dropWhile fun line => line.isEmpty && line.indent ≤ indent).length

/-- The text of a block scalar with the indent of its parent. Only one that is the whole document
may stand without indent. -/
def blockText? (style : BlockStyle) (parentIndent : Nat) (isRoot : Bool) (body : Text) :
    Option Text :=
  let lines := blockLines body
  if lines.all BlockLine.isEmpty then
    some
      (if style.chomping = .keep && !lines.isEmpty then
        List.replicate (max 1 (lines.length - 1)) 0x0A
      else [])
  else do
    let indent ← blockIndent? style (parentIndent + style.indent) lines
    if indent = 0 && !isRoot then none
    let count := contentLines indent lines
    let before := lines.takeWhile BlockLine.isEmpty
    let lead := before.flatMap fun line => line.beyond indent ++ [0x0A]
    let joined ← joinBlock? style.folded indent {} ((lines.take count).drop before.length)
    let text := lead ++ joined
    match style.chomping with
    | .strip => some text
    | .clip => some (text ++ [0x0A])
    | .keep =>
      let text := text ++ (lines.drop count).flatMap fun line => 0x0A :: line.beyond indent
      some (if text.getLast? = some 0x0A then text else text ++ [0x0A])

end SourceLint.External.Yaml
