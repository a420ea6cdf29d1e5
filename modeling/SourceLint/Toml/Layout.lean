/-
Where the keys, values and table headers of a TOML text stand. The reading never fails: it takes a
malformed text as far as it makes sense and goes on at the next line, so that a place is found for
every value that a well-formed text has.
-/
import SourceLint.Span
import SourceLint.Text.Blank

namespace SourceLint.Toml

/-- A value with its place and the path of its key, and the entries in it if it is an inline table;
their paths begin at the value. -/
inductive LayoutEntry where
  | mk (path : List Text) (valueSpan : Span) (inline : List LayoutEntry)

namespace LayoutEntry

/-- The path of the key. -/
def path : LayoutEntry → List Text
  | mk path _ _ => path

/-- The place of the value. -/
def valueSpan : LayoutEntry → Span
  | mk _ valueSpan _ => valueSpan

/-- The entries of an inline table. -/
def inline : LayoutEntry → List LayoutEntry
  | mk _ _ inline => inline

end LayoutEntry

/-- A table header: its path, and the position just past the last line of the table that is not
blank, where a further key can be added. -/
structure LayoutTable where
  path : List Text
  bodyEnd : Nat
  bodyEndsWithNewline : Bool

/-- The entries and table headers of a text, in order. -/
structure Layout where
  entries : List LayoutEntry
  tables : List LayoutTable

/-! ### The cursor -/

/-- A position and what comes from there on. A position past the end of the text has nothing. -/
structure Cursor where
  position : Nat
  rest : Text

namespace Cursor

/-- The cursor some units further on. -/
def advance (cursor : Cursor) (count : Nat) : Cursor :=
  ⟨cursor.position + count, cursor.rest.drop count⟩

/-- The unit at the cursor. -/
def peek (cursor : Cursor) : Option CodeUnit := cursor.rest.head?

/-- Whether a unit stands at the cursor. -/
def isAt (cursor : Cursor) (unit : CodeUnit) : Bool := cursor.rest.head? == some unit

/-- The cursor past the units that pass a test. -/
def skipWhile (cursor : Cursor) (test : CodeUnit → Bool) : Cursor :=
  cursor.advance (cursor.rest.takeWhile test).length

/-- The cursor past spaces and tabs. -/
def skipSpace (cursor : Cursor) : Cursor := cursor.skipWhile CodeUnit.isSpaceOrTab

/-- The cursor at the end of the line. -/
def skipLine (cursor : Cursor) : Cursor := cursor.skipWhile (· != 0x0A)

/-- How many units of white space, line breaks and comments a text begins with; the flag says that
a comment has begun. -/
def triviaLength : Bool → Text → Nat
  | _, [] => 0
  | true, unit :: rest => 1 + triviaLength (unit != 0x0A) rest
  | false, unit :: rest =>
    if unit = 0x20 || unit = 0x09 || unit = 0x0D || unit = 0x0A then 1 + triviaLength false rest
    else if unit = '#' then 1 + triviaLength true rest
    else 0

/-- The cursor past white space, line breaks and comments. -/
def skipTrivia (cursor : Cursor) : Cursor := cursor.advance (triviaLength false cursor.rest)

end Cursor

/-! ### Strings and keys -/

/-- A unit of a key without quotes: a letter, a digit, an underscore or a hyphen. -/
def isBareKeyUnit (unit : CodeUnit) : Bool := unit.isWordUnit || unit == '-'

/-- The length of a string after its opening quotes, its closing quotes included. A string on one
line ends before a line feed at the latest; a backslash counts for two units. -/
def stringBodyLength (quote : CodeUnit) (multiline : Bool) : Text → Nat
  | [] => 0
  | unit :: rest =>
    if quote = 0x22 && unit = 0x5C then
      match rest with
      | [] => 2
      | _ :: rest => 2 + stringBodyLength quote multiline rest
    else if multiline then
      if unit = quote && Text.startsWith rest [quote, quote] then
        3 + ((rest.drop 2).takeWhile (· == quote)).length
      else 1 + stringBodyLength quote multiline rest
    else if unit = quote then 1
    else if unit = 0x0A then 0
    else 1 + stringBodyLength quote multiline rest

/-- The length of the string that begins a text with a quote. -/
def stringLength (quote : CodeUnit) (text : Text) : Nat :=
  if Text.startsWith text [quote, quote, quote] then 3 + stringBodyLength quote true (text.drop 3)
  else 1 + stringBodyLength quote false (text.drop 1)

/-- Whether a unit is a quote. -/
def isQuote (unit : CodeUnit) : Bool := unit == 0x22 || unit == 0x27

/-- The unit that an escape of one letter stands for in a key. -/
def keyEscape? (unit : CodeUnit) : Option CodeUnit :=
  if unit = 0x22 || unit = 0x5C then some unit
  else if unit = 'b' then some 0x08
  else if unit = 'f' then some 0x0C
  else if unit = 'n' then some 0x0A
  else if unit = 'r' then some 0x0D
  else if unit = 't' then some 0x09
  else none

/-- A key between double quotes with its short escapes resolved. -/
def unescapeKey : Text → Text
  | [] => []
  | [unit] => [unit]
  | unit :: next :: rest =>
    if unit = 0x5C then
      match keyEscape? next with
      | some meant => meant :: unescapeKey rest
      | none => unit :: unescapeKey (next :: rest)
    else unit :: unescapeKey (next :: rest)

namespace Cursor

/-- Reads one part of a key. -/
def readKeyPart (cursor : Cursor) : Text × Cursor :=
  match cursor.rest with
  | [] => ([], cursor)
  | quote :: rest =>
    if isQuote quote then
      let length := stringLength quote cursor.rest
      let raw := rest.take (length - 2)
      (if quote = 0x22 then unescapeKey raw else raw, cursor.advance length)
    else
      let part := cursor.rest.takeWhile isBareKeyUnit
      (part, cursor.advance part.length)

/-- Reads the parts of a key after the first, each after a point. -/
def readKeyParts : Nat → Cursor → List Text × Cursor
  | 0, cursor => ([], cursor)
  | fuel + 1, cursor =>
    if cursor.isAt '.' then
      let (part, cursor) := (cursor.advance 1).skipSpace.readKeyPart
      let (parts, cursor) := readKeyParts fuel cursor.skipSpace
      (part :: parts, cursor)
    else ([], cursor)

/-- Reads a key. -/
def readKey (cursor : Cursor) : List Text × Cursor :=
  let (part, cursor) := cursor.readKeyPart
  let cursor := cursor.skipSpace
  let (parts, cursor) := readKeyParts (cursor.rest.length + 1) cursor
  (part :: parts, cursor)

end Cursor

/-! ### Values -/

/-- A unit that ends a value without quotes and brackets. -/
def endsBareValue (unit : CodeUnit) : Bool :=
  unit == '#' || unit == 0x0A || unit == ',' || unit == '\x7d' || unit == ']'

/-- Reads a value without quotes and brackets; the blanks at its end do not belong to it. -/
def Cursor.readBareValue (cursor : Cursor) : Span × Cursor :=
  let taken := cursor.rest.takeWhile fun unit => !endsBareValue unit
  (⟨cursor.position, cursor.position + (Text.trimEnd taken).length⟩, cursor.advance taken.length)

mutual

/-- Reads a value, with its entries if it is an inline table. The first argument bounds how deep the
reading goes. -/
def readValue : Nat → Cursor → Span × List LayoutEntry × Cursor
  | 0, cursor => (.point cursor.position, [], cursor)
  | fuel + 1, cursor =>
    match cursor.rest with
    | [] => (.point cursor.position, [], cursor)
    | unit :: _ =>
      if isQuote unit then
        let next := cursor.advance (stringLength unit cursor.rest)
        (⟨cursor.position, next.position⟩, [], next)
      else if unit = '\x7b' then
        let (entries, next) := readInlineEntries fuel (cursor.advance 1)
        (⟨cursor.position, next.position⟩, entries, next)
      else if unit = '[' then
        let next := readItems fuel (cursor.advance 1)
        (⟨cursor.position, next.position⟩, [], next)
      else
        let (span, next) := cursor.readBareValue
        (span, [], next)

/-- Reads the entries of an inline table up to its closing brace. -/
def readInlineEntries : Nat → Cursor → List LayoutEntry × Cursor
  | 0, cursor => ([], cursor)
  | fuel + 1, cursor =>
    let cursor := cursor.skipSpace
    if cursor.rest.isEmpty || cursor.isAt '\x7d' then ([], cursor.advance 1)
    else
      let (entry, next) := readEntry fuel cursor
      let next := next.skipSpace
      if next.isAt ',' then
        let (entries, next) := readInlineEntries fuel (next.advance 1)
        (entry :: entries, next)
      else if next.position = cursor.position then ([entry], next)
      else
        let (entries, next) := readInlineEntries fuel next
        (entry :: entries, next)

/-- Reads the items of an array up to its closing bracket. -/
def readItems : Nat → Cursor → Cursor
  | 0, cursor => cursor
  | fuel + 1, cursor =>
    let cursor := cursor.skipTrivia
    if cursor.rest.isEmpty || cursor.isAt ']' then cursor.advance 1
    else
      let (_, _, next) := readValue fuel cursor
      let next := next.skipTrivia
      if next.isAt ',' then readItems fuel (next.advance 1)
      else if next.position = cursor.position then next
      else readItems fuel next

/-- Reads a key, an equals sign and a value, whichever of them are there. -/
def readEntry : Nat → Cursor → LayoutEntry × Cursor
  | 0, cursor => (.mk [] (.point cursor.position) [], cursor)
  | fuel + 1, cursor =>
    let (path, cursor) := cursor.readKey
    let cursor := cursor.skipSpace
    let cursor := if cursor.isAt '=' then cursor.advance 1 else cursor
    let (span, inline, cursor) := readValue fuel cursor.skipSpace
    (.mk path span inline, cursor)

end

/-! ### The whole text -/

/-- The position just past the last line with anything but blanks in a part of the text that begins
at a position; that position if there is none. -/
def lastContentEnd (best position : Nat) : List Text → Nat
  | [] => best
  | [line] => if line.all CodeUnit.isBlank then best else position + line.length
  | line :: next :: rest =>
    let after := position + line.length + 1
    lastContentEnd (if line.all CodeUnit.isBlank then best else after) after (next :: rest)

/-- The table that a header opens, given where the header line ends and where the next header or the
text ends. -/
def LayoutTable.close (content : Text) (path : List Text) (headerEnd stop : Nat) : LayoutTable :=
  let bodyEnd :=
    lastContentEnd headerEnd headerEnd (Text.splitAt 0x0A (content.slice headerEnd stop))
  ⟨path, bodyEnd, bodyEnd > 0 && content[bodyEnd - 1]? == some 0x0A⟩

/-- A header that has been read: its path, and where its line ends. -/
structure OpenTable where
  path : List Text
  headerEnd : Nat

/-- The table that is open at some position, closed there. -/
def OpenTable.closeAt (content : Text) (stop : Nat) : Option OpenTable → List LayoutTable
  | none => []
  | some table => [.close content table.path table.headerEnd stop]

/-- The layout from a cursor on, in the table of the last header. -/
def layoutFrom (content : Text) : Nat → Option OpenTable → Cursor → Layout
  | 0, _, _ => ⟨[], []⟩
  | fuel + 1, table, cursor =>
    let cursor := cursor.skipTrivia
    if cursor.rest.isEmpty then ⟨[], OpenTable.closeAt content content.length table⟩
    else if cursor.isAt '[' then
      let brackets := if Text.startsWith cursor.rest "[[" then 2 else 1
      let (path, next) := (cursor.advance brackets).skipSpace.readKey
      let next := next.skipLine
      let headerEnd := if next.rest.isEmpty then next.position else next.position + 1
      let layout := layoutFrom content fuel (some ⟨path, headerEnd⟩) next
      ⟨layout.entries, OpenTable.closeAt content cursor.position table ++ layout.tables⟩
    else
      let (entry, next) := readEntry (4 * cursor.rest.length + 8) cursor
      let layout := layoutFrom content fuel table next.skipLine
      let tablePath := (table.map OpenTable.path).getD []
      ⟨.mk (tablePath ++ entry.path) entry.valueSpan entry.inline :: layout.entries, layout.tables⟩

/-- The layout of a text. Each step reads at least one unit. -/
def Layout.ofText (content : Text) : Layout :=
  layoutFrom content (content.length + 1) none ⟨0, content⟩

/-! ### Looking up -/

mutual

/-- The place of the value at a path in an entry or in the inline tables in it. -/
def LayoutEntry.find? (key : List Text) : LayoutEntry → Option Span
  | .mk path valueSpan inline =>
    if path = key then some valueSpan
    else if path.length < key.length && path = key.take path.length then
      findInEntries? (key.drop path.length) inline
    else none

/-- The place of the value at a path in the first of the entries that has it. -/
def findInEntries? (key : List Text) : List LayoutEntry → Option Span
  | [] => none
  | entry :: rest => entry.find? key <|> findInEntries? key rest

end

/-- The place of the value at a path. -/
def Layout.valueLocation? (layout : Layout) (key : List Text) : Option Span :=
  findInEntries? key layout.entries

/-- The first table with a header of a path. -/
def Layout.table? (layout : Layout) (key : List Text) : Option LayoutTable :=
  layout.tables.find? fun table => table.path = key

end SourceLint.Toml
