/-
The splitting of a shell text into simple commands. A machine reads the text unit by unit. Commands
end at line feeds and at the operators `;`, `&`, `|` and the parentheses, words also at blanks.
Quotes and backslashes keep units together; comments, here-document operators and the bodies after
them are passed over. An open quote at the end of the text is the only failure.
-/
import SourceLint.Shell.Command
import SourceLint.Text.Blank

namespace SourceLint.Shell

/-- A here-document whose body is still to come. -/
structure HereDocument where
  delimiter : Text
  /-- Tabs at the start of a line do not count. -/
  stripsTabs : Bool
  deriving DecidableEq, Repr

/-- The delimiter of a here-document as far as it is read. -/
structure DelimiterReader where
  text : Text := []
  quote : Option CodeUnit := none
  /-- The last unit was a backslash. -/
  escaped : Bool := false
  deriving DecidableEq, Repr

/-- What the machine is reading. -/
inductive Mode where
  | plain
  | singleQuoted
  | doubleQuoted
  /-- The unit after a backslash, which is taken as it is. -/
  | escaped
  /-- The line feed after a backslash, which counts for nothing. -/
  | continuation
  /-- The unit after a backslash between double quotes. -/
  | quotedEscape
  | comment
  /-- The second sign of a here-document operator. -/
  | operatorTail
  /-- The place of a hyphen after a here-document operator. -/
  | operatorHyphen
  /-- The blanks before a delimiter. -/
  | delimiterGap (stripsTabs : Bool)
  | delimiter (stripsTabs : Bool) (reader : DelimiterReader)
  /-- A line of the body of a here-document, as far as it is read. -/
  | body (line : Text)
  deriving DecidableEq, Repr

/-- A word that is being read. -/
structure OpenWord where
  start : Nat
  text : Text
  deriving DecidableEq, Repr

/-- The machine: what it reads, the unit before, the commands and words it has, the last first, and
the here-documents whose bodies are still to come. -/
structure Splitter where
  mode : Mode := .plain
  previous : Option CodeUnit := none
  commands : List Command := []
  words : List Word := []
  word : Option OpenWord := none
  pending : List HereDocument := []
  deriving DecidableEq, Repr

namespace Splitter

/-! ### Words and commands -/

/-- Begins a word at a position, unless one is open. -/
def openWord (splitter : Splitter) (position : Nat) : Splitter :=
  match splitter.word with
  | some _ => splitter
  | none => { splitter with word := some ⟨position, []⟩ }

/-- Adds units to the open word. -/
def append (splitter : Splitter) (units : Text) : Splitter :=
  { splitter with word := splitter.word.map fun word => { word with text := word.text ++ units } }

/-- Ends the open word, if there is one. -/
def closeWord (splitter : Splitter) (position : Nat) : Splitter :=
  match splitter.word with
  | some word =>
    { splitter with
      words := ⟨word.text, ⟨word.start, position⟩⟩ :: splitter.words, word := none }
  | none => splitter

/-- Ends the command. One without words is not kept. -/
def closeCommand (splitter : Splitter) (position : Nat) : Splitter :=
  let splitter := splitter.closeWord position
  match Command.dropReserved splitter.words.reverse with
  | [] => { splitter with words := [] }
  | command => { splitter with commands := command :: splitter.commands, words := [] }

/-! ### Reading a unit -/

/-- The operators that end a command. -/
def isOperator (unit : CodeUnit) : Bool := (";&|()" : Text).contains unit

/-- A unit that ends the delimiter of a here-document. -/
def endsDelimiter (unit : CodeUnit) : Bool := unit.isBlank || (";&|()<>" : Text).contains unit

/-- A here-document operator begins with a sign before this text: one more such sign, and no third. -/
def beginsHereDocument (rest : Text) : Bool :=
  rest.head? == some ('<' : CodeUnit) && rest[1]? != some ('<' : CodeUnit)

/-- An ampersand belongs to a redirection, because an arrow stands before it or after it. -/
def isRedirection (previous : Option CodeUnit) (rest : Text) : Bool :=
  previous == some ('>' : CodeUnit) || previous == some ('<' : CodeUnit) ||
    rest.head? == some ('>' : CodeUnit)

/-- The end of a line: the command ends, and the bodies of here-documents begin. -/
def endLine (splitter : Splitter) (position : Nat) : Splitter :=
  let splitter := splitter.closeCommand position
  { splitter with mode := if splitter.pending.isEmpty then .plain else .body [] }

/-- Reads a unit outside of quotes. -/
def readPlain (splitter : Splitter) (position : Nat) (unit : CodeUnit) (rest : Text) : Splitter :=
  if unit = '\\' then
    match rest with
    | [] => (splitter.openWord position).append [unit]
    | next :: _ =>
      if next = 0x0A then { splitter with mode := .continuation }
      else { splitter.openWord position with mode := .escaped }
  else if unit = 0x27 then { splitter.openWord position with mode := .singleQuoted }
  else if unit = '"' then { splitter.openWord position with mode := .doubleQuoted }
  else if unit = '#' && splitter.word.isNone then { splitter with mode := .comment }
  else if unit = '<' && beginsHereDocument rest then
    { splitter.closeWord position with mode := .operatorTail }
  else if unit = '&' && isRedirection splitter.previous rest then
    (splitter.openWord position).append [unit]
  else if unit = 0x0A then splitter.endLine position
  else if isOperator unit then splitter.closeCommand position
  else if unit.isBlank then splitter.closeWord position
  else (splitter.openWord position).append [unit]

/-- Reads a unit of the delimiter of a here-document. The unit that ends it is read as a plain one. -/
def readDelimiter (splitter : Splitter) (stripsTabs : Bool) (reader : DelimiterReader)
    (position : Nat) (unit : CodeUnit) (rest : Text) : Splitter :=
  let goOn (reader : DelimiterReader) : Splitter :=
    { splitter with mode := .delimiter stripsTabs reader }
  let taken := { reader with text := reader.text ++ [unit], escaped := false }
  if reader.escaped then goOn taken
  else
    match reader.quote with
    | some quote => if unit = quote then goOn { reader with quote := none } else goOn taken
    | none =>
      if unit = 0x27 || unit = '"' then goOn { reader with quote := some unit }
      else if unit = '\\' && !rest.isEmpty then goOn { reader with escaped := true }
      else if endsDelimiter unit then
        let document : HereDocument := ⟨reader.text, stripsTabs⟩
        let splitter := { splitter with mode := .plain, pending := splitter.pending ++ [document] }
        splitter.readPlain position unit rest
      else goOn taken

/-- Reads a unit of the blanks before a delimiter, or its first. -/
def readDelimiterGap (splitter : Splitter) (stripsTabs : Bool) (position : Nat) (unit : CodeUnit)
    (rest : Text) : Splitter :=
  if unit.isSpaceOrTab then { splitter with mode := .delimiterGap stripsTabs }
  else splitter.readDelimiter stripsTabs {} position unit rest

/-- A line closes the body of a here-document. -/
def HereDocument.isClosedBy (document : HereDocument) (line : Text) : Bool :=
  (if document.stripsTabs then line.dropWhile (· == 0x09) else line) == document.delimiter

/-- The end of a line of a body. -/
def endBodyLine (splitter : Splitter) (line : Text) : Splitter :=
  match splitter.pending with
  | [] => { splitter with mode := .plain }
  | document :: others =>
    if HereDocument.isClosedBy document line then
      { splitter with mode := if others.isEmpty then .plain else .body [], pending := others }
    else { splitter with mode := .body [] }

/-- Reads one unit. -/
def read (splitter : Splitter) (position : Nat) (unit : CodeUnit) (rest : Text) : Splitter :=
  match splitter.mode with
  | .plain => splitter.readPlain position unit rest
  | .singleQuoted =>
    if unit = 0x27 then { splitter with mode := .plain } else splitter.append [unit]
  | .doubleQuoted =>
    if unit = '\\' && !rest.isEmpty then { splitter with mode := .quotedEscape }
    else if unit = '"' then { splitter with mode := .plain }
    else splitter.append [unit]
  | .escaped => { splitter.append [unit] with mode := .plain }
  | .continuation => { splitter with mode := .plain }
  | .quotedEscape =>
    let meant : Text :=
      if unit = 0x0A then []
      else if ("\"$\x60\\" : Text).contains unit then [unit]
      else ['\\', unit]
    { splitter.append meant with mode := .doubleQuoted }
  | .comment => if unit = 0x0A then splitter.endLine position else splitter
  | .operatorTail => { splitter with mode := .operatorHyphen }
  | .operatorHyphen =>
    if unit = '-' then { splitter with mode := .delimiterGap true }
    else splitter.readDelimiterGap false position unit rest
  | .delimiterGap stripsTabs => splitter.readDelimiterGap stripsTabs position unit rest
  | .delimiter stripsTabs reader => splitter.readDelimiter stripsTabs reader position unit rest
  | .body line =>
    if unit = 0x0A then splitter.endBodyLine line else { splitter with mode := .body (line ++ [unit]) }

/-- The machine after one unit. -/
def step (splitter : Splitter) (position : Nat) (unit : CodeUnit) (rest : Text) : Splitter :=
  { splitter.read position unit rest with previous := some unit }

/-- The machine after a text that begins at a position. -/
def run (splitter : Splitter) (position : Nat) : Text → Splitter
  | [] => splitter
  | unit :: rest => (splitter.step position unit rest).run (position + 1) rest

/-- A quote is open. -/
def inQuote (splitter : Splitter) : Bool :=
  splitter.mode == .singleQuoted || splitter.mode == .doubleQuoted ||
    splitter.mode == .quotedEscape

end Splitter

/-- The simple commands of a text, or nothing if a quote is open at its end. -/
def commands? (content : Text) : Option (List Command) :=
  let splitter := ({} : Splitter).run 0 content
  if splitter.inQuote then none else some (splitter.closeCommand content.length).commands.reverse

end SourceLint.Shell
