/-
The tokens of a YAML text: its indicators, properties, scalars, blanks and comments, each with the
place where it begins. Together they hold every unit of the text once and in order. Where a plain
or quoted scalar goes on over several lines, and where a block scalar ends, depends on the indents
of the lines, which the reader keeps as it goes.
-/
import SourceLint.Text.Blank

namespace SourceLint.External.Yaml

/-- What a token is. -/
inductive TokenKind where
  | byteOrderMark
  /-- The place, of width zero, where a document without a start marker begins. -/
  | bareDocument
  | documentStart
  | documentEnd
  | directive
  | space
  | comment
  | newline
  | alias
  | anchor
  | tag
  | sequenceEntry
  | explicitKey
  | mappingValue
  | flowMappingStart
  | flowMappingEnd
  | flowSequenceStart
  | flowSequenceEnd
  | comma
  /-- A plain scalar. -/
  | scalar
  | singleQuoted
  | doubleQuoted
  | blockHeader
  /-- The lines of a block scalar, which follow its header line. -/
  | blockBody
  deriving DecidableEq, Repr

/-- A token with its place. The indent is that of its line as far as it is read. -/
structure Token where
  kind : TokenKind
  start : Nat
  text : Text
  indent : Nat := 0
  deriving DecidableEq, Repr

/-- The position just past a token. -/
def Token.stop (token : Token) : Nat := token.start + token.text.length

/-! ### Classes of units -/

/-- The unit that ends a token: a blank, a line break, or the end of the text. -/
def isGap : Option CodeUnit → Bool
  | none => true
  | some unit => unit == 0x20 || unit == 0x0A || unit == 0x0D || unit == 0x09

/-- An indicator of flow collections. -/
def isFlowIndicator : Option CodeUnit → Bool
  | none => false
  | some unit => unit == ',' || unit == '[' || unit == ']' || unit == '\x7b' || unit == '\x7d'

/-- The unit that ends the name of an anchor or alias. -/
def endsName : Option CodeUnit → Bool
  | none => true
  | some unit => isGap (some unit) || isFlowIndicator (some unit)

/-- A unit that a tag may hold as it is. -/
def isTagUnit (unit : CodeUnit) : Bool :=
  unit.isAlphanumeric || ("-#;/?:@&=+$_.!~*'()" : Text).contains unit

/-! ### The reader -/

/-- What the reader does next. -/
inductive Mode where
  | stream
  | blockStart
  | document
  | flow
  deriving DecidableEq, Repr

/-- How many further modes the reader may come to before it has to take a unit. -/
def Mode.stepsBefore : Mode → Nat
  | .stream => 2
  | .blockStart => 1
  | .document => 0
  | .flow => 0

/-- The reader: the text, the position, what it remembers of indents and flow collections, and the
tokens found so far, the last first. -/
structure Reader where
  buffer : Array CodeUnit
  position : Nat := 0
  /-- The indent that the next line needs to belong to what is being read. -/
  indentNext : Nat := 0
  /-- The indent of the current line, its entry indicators included. -/
  indentValue : Nat := 0
  /-- A colon right after the last token would make that token a key. -/
  flowKey : Bool := false
  flowLevel : Nat := 0
  tokens : List Token := []

namespace Reader

/-- The unit at a position. -/
def unitAt (reader : Reader) (position : Nat) : Option CodeUnit := reader.buffer[position]?

/-- The unit some way ahead of the position. -/
def peek (reader : Reader) (ahead : Nat := 0) : Option CodeUnit :=
  reader.unitAt (reader.position + ahead)

/-- The first position, from one on, whose unit passes a test that the end of the text passes. -/
def firstWhere (reader : Reader) (test : Option CodeUnit → Bool) (position : Nat) : Nat :=
  if position < reader.buffer.size then
    if test (reader.unitAt position) then position
    else reader.firstWhere test (position + 1)
  else reader.buffer.size
termination_by reader.buffer.size - position

/-- The first position of a unit from one on. -/
def find? (reader : Reader) (unit : CodeUnit) (position : Nat) : Option Nat :=
  let found := reader.firstWhere (· == some unit) position
  if found < reader.buffer.size then some found else none

/-- The text between two positions. -/
def textBetween (reader : Reader) (start stop : Nat) : Text :=
  (reader.buffer.extract start stop).toList

/-- Whether a text stands at a position. -/
def holds (reader : Reader) (position : Nat) (text : Text) : Bool :=
  reader.textBetween position (position + text.length) == text

/-- Takes the text up to a position as a token, even if it is empty. -/
def take (reader : Reader) (kind : TokenKind) (stop : Nat) : Reader :=
  let text := reader.textBetween reader.position stop
  { reader with
    position := reader.position + text.length
    tokens := ⟨kind, reader.position, text, 0⟩ :: reader.tokens }

/-- Takes the text up to a position as a token, unless it is empty. -/
def takeSome (reader : Reader) (kind : TokenKind) (stop : Nat) : Reader :=
  if reader.position < stop then reader.take kind stop else reader

/-- Takes the blanks at the position: spaces, and tabs too if asked. -/
def takeSpaces (reader : Reader) (withTabs : Bool) : Reader :=
  reader.takeSome .space
    (reader.firstWhere
      (fun unit => !(unit == some 0x20 || (withTabs && unit == some 0x09))) reader.position)

/-- Takes the line break at the position, if one is there. -/
def takeNewline (reader : Reader) : Reader :=
  if reader.peek == some 0x0A then reader.take .newline (reader.position + 1)
  else if reader.peek == some 0x0D && reader.peek 1 == some 0x0A then
    reader.take .newline (reader.position + 2)
  else reader

/-- The position where the current line ends: before its line break. -/
def lineEnd (reader : Reader) : Nat :=
  match reader.find? 0x0A reader.position with
  | none => reader.buffer.size
  | some found =>
    if reader.position < found && reader.unitAt (found - 1) == some 0x0D then found - 1 else found

/-- Whether nothing but blanks and a comment is left on the current line. -/
def atLineEnd (reader : Reader) : Bool :=
  let position :=
    reader.firstWhere (fun unit => !(unit == some 0x20 || unit == some 0x09)) reader.position
  match reader.unitAt position with
  | none => true
  | some unit =>
    unit == '#' || unit == 0x0A || (unit == 0x0D && reader.unitAt (position + 1) == some 0x0A)

/-- Whether a document marker stands at a position. -/
def atMarker (reader : Reader) (position : Nat) : Bool :=
  (reader.holds position "---" || reader.holds position "...") &&
    isGap (reader.unitAt (position + 3))

/-- Where a scalar goes on, given the start of a further line; `none` when that line is not part of
the scalar. -/
def continueScalar (reader : Reader) (lineStart : Nat) : Option Nat :=
  if reader.indentNext > 0 then
    let content := reader.firstWhere (· != some 0x20) lineStart
    let unit := reader.unitAt content
    if unit == some 0x0D && reader.unitAt (content + 1) == some 0x0A then some (content + 1)
    else if unit == some 0x0A || content - lineStart ≥ reader.indentNext then some content
    else none
  else if reader.atMarker lineStart then none
  else some lineStart

/-! ### Properties and indicators -/

/-- Where a tag that does not begin with `!<` ends. -/
def shortTagEnd (reader : Reader) (position : Nat) : Nat :=
  if position < reader.buffer.size then
    match reader.unitAt position with
    | none => position
    | some unit =>
      if isTagUnit unit then reader.shortTagEnd (position + 1)
      else if unit == '%' && ((reader.unitAt (position + 1)).any CodeUnit.isHexDigit) &&
          ((reader.unitAt (position + 2)).any CodeUnit.isHexDigit) then
        reader.shortTagEnd (position + 3)
      else position
  else position
termination_by reader.buffer.size - position

/-- Takes the tag at the position. -/
def takeTag (reader : Reader) : Reader :=
  if reader.peek 1 == some ('<' : CodeUnit) then
    let stop :=
      reader.firstWhere (fun unit => isGap unit || unit == some ('>' : CodeUnit))
        (reader.position + 2)
    reader.take .tag (if reader.unitAt stop == some ('>' : CodeUnit) then stop + 1 else stop)
  else reader.take .tag (reader.shortTagEnd (reader.position + 1))

/-- Takes the name that an anchor or alias sign at the position begins. -/
def takeName (reader : Reader) (kind : TokenKind) : Reader :=
  reader.take kind (reader.firstWhere endsName reader.position)

/-- The entry and pair indicators. -/
def indicator? : Option CodeUnit → Option TokenKind
  | none => none
  | some unit =>
    if unit == '-' then some .sequenceEntry
    else if unit == '?' then some .explicitKey
    else if unit == ':' then some .mappingValue
    else none

/-- The reader before it takes an indicator: in brackets no colon makes the token before a key, and
elsewhere further lines have to be indented more. -/
def beforeIndicator (reader : Reader) : Reader :=
  if reader.flowLevel > 0 then { reader with flowKey := false }
  else { reader with indentNext := reader.indentValue + 1 }

/-- Takes the entry or pair indicator at the position, if one is there. -/
def takeSign? (reader : Reader) : Option Reader :=
  (indicator? reader.peek).bind fun kind =>
    if isGap (reader.peek 1) || (reader.flowLevel > 0 && isFlowIndicator (reader.peek 1)) then
      some (reader.beforeIndicator.take kind (reader.position + 1))
    else none

/-- Takes the tag, the anchor or the indicator at the position, if one is there. -/
def takeIndicator? (reader : Reader) : Option Reader :=
  if reader.peek == some ('!' : CodeUnit) then some reader.takeTag
  else if reader.peek == some ('&' : CodeUnit) then some (reader.takeName .anchor)
  else reader.takeSign?

/-- Takes tags, anchors and indicators, with the blanks after each, as long as there are any; each
takes at least one unit. -/
def takeIndicators : Nat → Reader → Reader
  | 0, reader => reader
  | fuel + 1, reader =>
    match reader.takeIndicator? with
    | some taken => takeIndicators fuel (taken.takeSpaces true)
    | none => reader

/-! ### Scalars -/

/-- The closing quote of a single-quoted scalar; two quotes in a row do not close it. -/
def closingSingle? (reader : Reader) (position : Nat) : Option Nat :=
  if position < reader.buffer.size then
    if reader.unitAt position == some 0x27 then
      if reader.unitAt (position + 1) == some 0x27 then reader.closingSingle? (position + 2)
      else some position
    else reader.closingSingle? (position + 1)
  else none
termination_by reader.buffer.size - position

/-- The closing quote of a double-quoted scalar; a unit after a backslash does not close it. -/
def closingDouble? (reader : Reader) (position : Nat) : Option Nat :=
  if position < reader.buffer.size then
    if reader.unitAt position == some 0x5C then reader.closingDouble? (position + 2)
    else if reader.unitAt position == some 0x22 then some position
    else reader.closingDouble? (position + 1)
  else none
termination_by reader.buffer.size - position

/-- The first line break before a limit after which a scalar does not go on. -/
def brokenLine? (reader : Reader) (limit : Nat) : Nat → Nat → Option Nat
  | 0, _ => none
  | fuel + 1, position =>
    match reader.find? 0x0A position with
    | none => none
    | some found =>
      if found < limit then
        match reader.continueScalar (found + 1) with
        | none => some found
        | some next => reader.brokenLine? limit fuel next
      else none

/-- The kind of the quoted scalar at the position. -/
def quotedKind (reader : Reader) : TokenKind :=
  if reader.peek == some 0x27 then .singleQuoted else .doubleQuoted

/-- The quote that closes the quoted scalar at the position. -/
def closingQuote? (reader : Reader) : Option Nat :=
  if reader.peek == some 0x27 then reader.closingSingle? (reader.position + 1)
  else reader.closingDouble? (reader.position + 1)

/-- Where the quoted scalar at the position ends: behind its closing quote, before a line that is not
indented enough, or at the end of the text. -/
def quotedEnd (reader : Reader) : Nat :=
  match reader.closingQuote? with
  | none => reader.buffer.size
  | some closing =>
    match reader.brokenLine? closing (closing + 1) reader.position with
    | none => closing + 1
    | some found => if reader.unitAt (found - 1) == some 0x0D then found - 1 else found

/-- Takes the quoted scalar at the position. -/
def takeQuoted (reader : Reader) : Reader := reader.take reader.quotedKind reader.quotedEnd

/-- What stands at a position behind a blank or line break ends a plain scalar before these. -/
def endsPlain (reader : Reader) (position : Nat) : Bool :=
  reader.unitAt position == some ('#' : CodeUnit) ||
    (reader.flowLevel > 0 && isFlowIndicator (reader.unitAt position))

/-- What a line break does to a plain scalar, given the position of its last unit. -/
def plainBreak (reader : Reader) (last stop : Nat) : Nat × Option Nat :=
  if reader.endsPlain (last + 1) then (stop, none)
  else (stop, (reader.continueScalar (last + 1)).map fun goesOn => max last (goesOn - 2) + 1)

/-- What a blank or a line break at a position does to a plain scalar. A carriage return on its own is
part of it. -/
def plainGap (reader : Reader) (unit : CodeUnit) (position stop : Nat) : Nat × Option Nat :=
  if unit == 0x0D && reader.unitAt (position + 1) == some 0x0A then
    reader.plainBreak (position + 1) stop
  else if unit == 0x0A then reader.plainBreak position stop
  else
    (if unit == 0x0D then position + 1 else stop,
      if reader.endsPlain (position + 1) then none else some (position + 1))

/-- A colon before this position is the indicator of a value. -/
def endsColon (reader : Reader) (position : Nat) : Bool :=
  isGap (reader.unitAt position) ||
    (reader.flowLevel > 0 && isFlowIndicator (reader.unitAt position))

/-- What the unit at a position does to a plain scalar: the end of what is known to be part of the
scalar, and where the reader looks next if the scalar may go on. -/
def plainTurn (reader : Reader) (position stop : Nat) : Nat × Option Nat :=
  match reader.unitAt position with
  | none => (stop, none)
  | some unit =>
    if unit == ':' && reader.endsColon (position + 1) then (stop, none)
    else if isGap (some unit) then reader.plainGap unit position stop
    else if reader.flowLevel > 0 && isFlowIndicator (some unit) then (stop, none)
    else (position + 1, some (position + 1))

/-- Where the plain scalar that is being read ends. `stop` is the end of what is known to be part
of it. -/
def plainEnd (reader : Reader) : Nat → Nat → Nat → Nat
  | 0, _, stop => stop
  | fuel + 1, position, stop =>
    match reader.plainTurn position stop with
    | (stop, none) => stop
    | (stop, some next) => reader.plainEnd fuel next stop

/-- Takes the plain scalar at the position. -/
def takePlain (reader : Reader) : Reader :=
  reader.take .scalar
    (reader.plainEnd (reader.buffer.size + 1 - reader.position) reader.position reader.position)

/-! ### Block scalars -/

/-- What the header of a block scalar says: the indent of its lines beyond that of its parent, less
one, and whether trailing lines are kept. -/
structure BlockHeader where
  indent : Option Nat
  keeps : Bool

/-- The header after its first sign. -/
def blockHeader (reader : Reader) : Nat → Nat → BlockHeader → BlockHeader
  | 0, _, header => header
  | fuel + 1, position, header =>
    match reader.unitAt position with
    | none => header
    | some unit =>
      if unit == '+' then reader.blockHeader fuel (position + 1) { header with keeps := true }
      else if 0x31 ≤ unit && unit ≤ 0x39 then
        reader.blockHeader fuel (position + 1) { header with indent := some (unit.toNat - 0x31) }
      else if unit == '-' then reader.blockHeader fuel (position + 1) header
      else header

/-- The blank lines at the start of a block scalar: the last line break before its first line with
content, and the indent of that line. -/
def blockLead (reader : Reader) : Nat → Nat → Nat → Nat → Nat × Nat
  | 0, _, lastBreak, indent => (lastBreak, indent)
  | fuel + 1, position, lastBreak, indent =>
    match reader.unitAt position with
    | some unit =>
      if unit == 0x20 then reader.blockLead fuel (position + 1) lastBreak (indent + 1)
      else if unit == 0x0A then reader.blockLead fuel (position + 1) position 0
      else if unit == 0x0D && reader.unitAt (position + 1) == some 0x0A then
        reader.blockLead fuel (position + 1) lastBreak indent
      else (lastBreak, indent)
    | none => (lastBreak, indent)

/-- The line break at which a block scalar ends, from a line break within it; the end of the text
counts as one. -/
def blockBreak (reader : Reader) : Nat → Nat → Nat
  | 0, lastBreak => lastBreak
  | fuel + 1, lastBreak =>
    match reader.continueScalar (lastBreak + 1) with
    | none => lastBreak
    | some next =>
      match reader.find? 0x0A next with
      | some found => reader.blockBreak fuel found
      | none => reader.buffer.size

/-- The end of the units before a position that are spaces. -/
def beforeSpaces (reader : Reader) : Nat → Nat
  | 0 => 0
  | position + 1 =>
    if reader.unitAt position == some 0x20 then reader.beforeSpaces position else position + 1

/-- The break at which a block scalar ends when its trailing blank lines are left out, as far as
they are not indented more than its lines. -/
def trimmedBreak (reader : Reader) (indent : Nat) : Nat → Nat → Nat
  | 0, lastBreak => lastBreak
  | fuel + 1, lastBreak =>
    let lineStop :=
      if lastBreak > 0 && reader.unitAt (lastBreak - 1) == some 0x0D then lastBreak - 1
      else lastBreak
    let content := reader.beforeSpaces lineStop
    if content > reader.position && reader.unitAt (content - 1) == some 0x0A &&
        content + indent + 1 > lineStop then
      reader.trimmedBreak indent fuel (content - 1)
    else lastBreak

/-- The indent that the lines of a block scalar need, given that of the first one with content. -/
def blockIndent (reader : Reader) (header : BlockHeader) (indent : Nat) : Nat :=
  match header.indent with
  | none => indent
  | some extra => extra + if reader.indentNext = 0 then 1 else reader.indentNext

/-- Where the body of a block scalar ends, given the last line break before a line that is not part
of it. -/
def blockEnd (reader : Reader) (header : BlockHeader) (indent lastBreak : Nat) : Nat :=
  let content := reader.firstWhere (· != some 0x20) (lastBreak + 1)
  if reader.unitAt content == some 0x09 then
    reader.firstWhere (fun unit => unit.isNone || !isGap unit) content
  else if header.keeps then lastBreak + 1
  else reader.trimmedBreak indent (reader.buffer.size + 1) lastBreak + 1

/-- Takes the body of a block scalar, whose header line has just been read. -/
def takeBlockBody (reader : Reader) (header : BlockHeader) : Reader :=
  let fuel := reader.buffer.size + 1
  let lead := reader.blockLead fuel reader.position (reader.position - 1) 0
  if lead.2 ≥ reader.indentNext then
    let reader := { reader with indentNext := reader.blockIndent header lead.2 }
    reader.take .blockBody (reader.blockEnd header lead.2 (reader.blockBreak fuel lead.1))
  else reader.take .blockBody (reader.blockEnd header lead.2 lead.1)

/-- Takes what is left of a line that ends at a position, with its line break. -/
def takeRestOfLine (reader : Reader) (lineEnd : Nat) : Reader :=
  (reader.takeSome .comment lineEnd).takeNewline

/-- Takes the block scalar at the position, whose header line ends at another. Words after its signs
are refused. -/
def takeBlockScalar (reader : Reader) (lineEnd : Nat) : Option Reader :=
  let header := reader.blockHeader (reader.buffer.size + 1) (reader.position + 1) ⟨none, false⟩
  let signs :=
    reader.take .blockHeader
      (reader.firstWhere (fun unit => isGap unit || unit == some ('#' : CodeUnit)) reader.position)
  let spaced := signs.takeSpaces true
  if spaced.position < lineEnd && spaced.peek != some ('#' : CodeUnit) then none
  else some ((spaced.takeRestOfLine lineEnd).takeBlockBody header)

/-! ### Lines, documents and flow collections -/

/-- Reads the start of a line: a document marker, or the indent. -/
def lineStart (reader : Reader) : Reader × Mode :=
  if reader.atMarker reader.position then
    let begins := reader.peek == some ('-' : CodeUnit)
    let reader :=
      reader.take (if begins then .documentStart else .documentEnd) (reader.position + 3)
    ({ reader with indentValue := 0, indentNext := 0 }, if begins then .document else .stream)
  else
    let before := reader.position
    let reader := reader.takeSpaces false
    let indentValue := reader.position - before
    let indentNext :=
      if reader.indentNext > indentValue && !isGap (reader.peek 1) then indentValue
      else reader.indentNext
    ({ reader with indentValue := indentValue, indentNext := indentNext }, .blockStart)

/-- Reads an entry or pair indicator after the indent, with the blanks after it. -/
def blockStart (reader : Reader) : Reader × Mode :=
  match indicator? reader.peek with
  | some kind =>
    if isGap (reader.peek 1) then
      let before := reader.position
      let reader := (reader.take kind (before + 1)).takeSpaces true
      ({ reader with
          indentNext := reader.indentValue + 1
          indentValue := reader.indentValue + (reader.position - before) },
        .blockStart)
    else (reader, .document)
  | none => (reader, .document)

/-- The unit at the position, if the line that ends at another position is not over. -/
def peekOnLine (reader : Reader) (lineEnd : Nat) : Option CodeUnit :=
  if reader.position < lineEnd then reader.peek else none

/-- The opening bracket at the position taken. -/
def takeOpening (reader : Reader) (unit : CodeUnit) : Reader :=
  { reader.take (if unit == '[' then .flowSequenceStart else .flowMappingStart)
      (reader.position + 1) with
    flowKey := false, flowLevel := reader.flowLevel + 1 }

/-- Reads a node of a block collection, or the rest of a line that ends at a position. A bracket that
closes nothing and words after the header of a block scalar are refused. -/
def blockNode (reader : Reader) (lineEnd : Nat) : Option (Reader × Mode) :=
  match reader.peekOnLine lineEnd with
  | none => some (reader.takeNewline.lineStart)
  | some unit =>
    if unit == '#' then some ((reader.takeRestOfLine lineEnd).lineStart)
    else if unit == '\x7b' || unit == '[' then some (reader.takeOpening unit, .flow)
    else if unit == '\x7d' || unit == ']' then none
    else if unit == '*' then some (reader.takeName .alias, .document)
    else if unit == 0x22 || unit == 0x27 then some (reader.takeQuoted, .document)
    else if unit == '|' || unit == '>' then (reader.takeBlockScalar lineEnd).map lineStart
    else some (reader.takePlain, .document)

/-- Reads the indicators before the next node of a block collection, and the node. -/
def document (reader : Reader) : Option (Reader × Mode) :=
  let spaced := reader.takeSpaces true
  (takeIndicators (reader.buffer.size + 1) spaced).blockNode spaced.lineEnd

/-- Takes line breaks and blanks within a flow collection; the number is the indent of the last
line that began. -/
def flowGaps : Nat → Reader → Option Nat → Reader × Option Nat
  | 0, reader, indent => (reader, indent)
  | fuel + 1, reader, indent =>
    let broken := reader.takeNewline
    if reader.position < broken.position then
      let spaced := broken.takeSpaces false
      let indent := spaced.position - broken.position
      flowGaps fuel ({ spaced with indentValue := indent }.takeSpaces true) (some indent)
    else
      let spaced := reader.takeSpaces true
      if reader.position < spaced.position then flowGaps fuel spaced indent else (reader, indent)

/-- Takes commas with the blanks after them. -/
def takeCommas : Nat → Reader → Reader
  | 0, reader => reader
  | fuel + 1, reader =>
    if reader.peek == some (',' : CodeUnit) then
      takeCommas fuel
        { (reader.take .comma (reader.position + 1)).takeSpaces true with flowKey := false }
    else reader

/-- The closing bracket at the position taken. -/
def takeClosing (reader : Reader) (unit : CodeUnit) : Reader × Mode :=
  let level := reader.flowLevel - 1
  ({ reader.take (if unit == ']' then .flowSequenceEnd else .flowMappingEnd)
      (reader.position + 1) with
    flowKey := true, flowLevel := level },
    if level > 0 then .flow else .document)

/-- Reads a node or a bracket of a flow collection, or the rest of a line that ends at a position. -/
def flowNode (reader : Reader) (lineEnd : Nat) : Reader × Mode :=
  match reader.peekOnLine lineEnd with
  | none => (reader, .flow)
  | some unit =>
    if unit == '#' then (reader.takeSome .comment lineEnd, .flow)
    else if unit == '\x7b' || unit == '[' then (reader.takeOpening unit, .flow)
    else if unit == '\x7d' || unit == ']' then reader.takeClosing unit
    else if unit == '*' then (reader.takeName .alias, .flow)
    else if unit == 0x22 || unit == 0x27 then ({ reader with flowKey := true }.takeQuoted, .flow)
    else if unit == ':' &&
        (reader.flowKey || isGap (reader.peek 1) || reader.peek 1 == some (',' : CodeUnit)) then
      (({ reader with flowKey := false }.take .mappingValue (reader.position + 1)).takeSpaces true,
        .flow)
    else ({ reader with flowKey := false }.takePlain, .flow)

/-- A line in a flow collection that may not stand there: it is not indented enough, or a document
marker begins it. A closing bracket may stand at the indent of its parent. -/
def isDedented (reader : Reader) (indent : Option Nat) : Bool :=
  let first := reader.peekOnLine reader.lineEnd
  let dedented :=
    match indent with
    | none => false
    | some indent =>
      (indent < reader.indentNext && first != some ('#' : CodeUnit)) ||
        (indent = 0 && reader.atMarker reader.position)
  let closesAtParent :=
    (indent.any fun indent => indent + 1 = reader.indentNext) && reader.flowLevel = 1 &&
      (first == some (']' : CodeUnit) || first == some ('\x7d' : CodeUnit))
  dedented && !closesAtParent

/-- Reads the commas and indicators before the next part of a flow collection, and the part. -/
def flow (reader : Reader) : Option (Reader × Mode) :=
  let fuel := reader.buffer.size + 1
  let begun := flowGaps fuel reader none
  if begun.1.isDedented begun.2 then none
  else some ((takeIndicators fuel (takeCommas fuel begun.1)).flowNode begun.1.lineEnd)

/-- Where a comment begins in a directive line, with the blank before it: the first number sign that
follows a blank, or the end of the line. -/
def commentStart : Nat → CodeUnit → Text → Nat
  | position, _, [] => position
  | position, before, unit :: rest =>
    if unit = '#' && before.isSpaceOrTab then position - 1
    else commentStart (position + 1) unit rest

/-- The length of a directive, given its line: what comes before a comment, without the blanks at
its end. -/
def directiveLength (line : Text) : Nat :=
  ((line.take (commentStart 0 0 line)).reverse.dropWhile CodeUnit.isSpaceOrTab).length

/-- Takes the byte order mark at the position, if one is there. -/
def takeByteOrderMark (reader : Reader) : Reader :=
  if reader.peek == some 0xFEFF then reader.take .byteOrderMark (reader.position + 1) else reader

/-- Takes the directive at the position, on a line that ends at another, with the blanks after it. -/
def takeDirective (reader : Reader) (lineEnd : Nat) : Reader :=
  let length := directiveLength (reader.textBetween reader.position lineEnd)
  (reader.take .directive (reader.position + length)).takeSpaces true

/-- Reads a line outside of documents: a directive, a comment, or the start of a document. -/
def streamLine (reader : Reader) : Reader × Mode :=
  let lineEnd := reader.lineEnd
  if reader.peek == some ('%' : CodeUnit) then
    ((reader.takeDirective lineEnd).takeSome .comment lineEnd, .stream)
  else if reader.atLineEnd then ((reader.takeSpaces true).takeRestOfLine lineEnd, .stream)
  else (reader.take .bareDocument reader.position).lineStart

/-- Reads a line outside of documents, which a byte order mark may begin. -/
def stream (reader : Reader) : Reader × Mode := reader.takeByteOrderMark.streamLine

/-- One step of the reader. -/
def step (reader : Reader) : Mode → Option (Reader × Mode)
  | .stream => some reader.stream
  | .blockStart => some reader.blockStart
  | .document => reader.document
  | .flow => reader.flow

/-- How many steps the reader can still take: a step that takes no unit comes to a later mode. -/
def stepsLeft (reader : Reader) (mode : Mode) : Nat :=
  4 * (reader.buffer.size - reader.position) + mode.stepsBefore

/-- Steps of the reader up to the end of the text. -/
def run (reader : Reader) (mode : Mode) : Option (List Token) :=
  if reader.position < reader.buffer.size then
    match reader.step mode with
    | some (next, nextMode) =>
      if next.stepsLeft nextMode < reader.stepsLeft mode then next.run nextMode else none
    | none => none
  else some reader.tokens.reverse
termination_by reader.stepsLeft mode

end Reader

/-- The tokens of a text, or nothing for a text in which no reading of it is a document. -/
def tokens? (content : Text) : Option (List Token) :=
  Reader.run { buffer := content.toArray } .stream

end SourceLint.External.Yaml
