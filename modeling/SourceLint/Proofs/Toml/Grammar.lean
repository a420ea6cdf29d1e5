/-
This file says how TOML documents are written. What is written is a tree of its parts, down to the
blanks between them: it has a source, the text that the parts give when they are put together, and it
has a meaning, if nothing in it is defined twice. A reader of TOML is a function that accepts the
sources of the trees with a meaning, and gives that meaning.

Which words stand for numbers, truth values, dates and times is left open, within the units that such
words have, and so is which units beyond ASCII may stand in strings and comments.
-/
import SourceLint.Toml.Draft
import SourceLint.Toml.Layout

namespace SourceLint.Toml

/-! ### What is left open -/

/-- A line ending. -/
inductive Newline where
  | lineFeed
  | pair
  deriving DecidableEq, Repr

/-- The units of a line ending. -/
def Newline.source : Newline → Text
  | lineFeed => [0x0A]
  | pair => [0x0D, 0x0A]

/-- A unit of the words for numbers, truth values, dates and times. -/
def isScalarUnit (unit : CodeUnit) : Bool :=
  unit.isWordUnit || unit == '+' || unit == '-' || unit == '.' || unit == ':'

/-- A word may stand for a number, a truth value, a date or a time: it has such units only, but for a
space between a date and a time. -/
structure IsWord (word : Text) : Prop where
  first : ∃ unit rest, word = unit :: rest ∧ isScalarUnit unit = true
  last : ∃ front unit, word = front ++ [unit] ∧ isScalarUnit unit = true
  units : ∀ unit ∈ word, isScalarUnit unit = true ∨ unit = 0x20

/-- What the rules on documents leave to the reader. -/
structure Dialect where
  /-- Numbers, truth values, dates and times. -/
  Scalar : Type
  /-- The type of a scalar, by a number. The items of an array have one type. -/
  type : Scalar → Nat
  /-- What a word stands for. -/
  scalar? : Text → Option Scalar
  isWord_of_scalar? : ∀ word value, scalar? word = some value → IsWord word
  /-- What a line ending in a string stands for. -/
  lineBreak : Newline → Text
  /-- A unit may stand in a string. -/
  isStringUnit : CodeUnit → Bool
  not_isStringUnit_of_break : ∀ unit, unit = 0x0A ∨ unit = 0x0D → isStringUnit unit = false
  isStringUnit_of_printable : ∀ unit : CodeUnit, 0x20 ≤ unit → unit ≤ 0x7E → isStringUnit unit = true
  /-- A unit may stand in a comment. -/
  isCommentUnit : CodeUnit → Bool
  not_isCommentUnit_lineFeed : isCommentUnit 0x0A = false

variable {dialect : Dialect}

/-! ### Blanks and comments -/

/-- Spaces and tabs. -/
structure Blanks where
  source : Text
  areBlank : ∀ unit ∈ source, unit.isSpaceOrTab = true

/-- A comment, which has the rest of its line. -/
structure Comment (dialect : Dialect) where
  text : Text
  areUnits : ∀ unit ∈ text, dialect.isCommentUnit unit = true

/-- The units of a comment. -/
def Comment.source (comment : Comment dialect) : Text := ('#' : CodeUnit) :: comment.text

/-- The units of a comment, if there is one. -/
def commentSource : Option (Comment dialect) → Text
  | none => []
  | some comment => comment.source

/-- What may stand between the items of an array: blanks, and the rests of lines. -/
inductive Gap (dialect : Dialect) where
  | none
  | blank (unit : CodeUnit) (isBlank : unit.isSpaceOrTab = true) (rest : Gap dialect)
  | newline (comment : Option (Comment dialect)) (ending : Newline) (rest : Gap dialect)

/-- The units of a gap. -/
def Gap.source : Gap dialect → Text
  | none => []
  | blank unit _ rest => unit :: rest.source
  | newline comment ending rest => commentSource comment ++ (ending.source ++ rest.source)

/-! ### Strings -/

/-- The double quote. Only strings between double quotes have escapes. -/
def doubleQuote : CodeUnit := 0x22

/-- The single quote. -/
def singleQuote : CodeUnit := 0x27

/-- A string stands between quotes of one kind. -/
def IsQuote (quote : CodeUnit) : Prop := quote = doubleQuote ∨ quote = singleQuote

/-- The backslash. -/
def backslash : CodeUnit := 0x5C

/-- The quotes at either end of a string. -/
def quotes (quote : CodeUnit) (multiline : Bool) : Text :=
  if multiline then [quote, quote, quote] else [quote]

/-- The letters behind a backslash, with the units that they stand for. -/
def shortEscapes : List (CodeUnit × CodeUnit) :=
  [('b', 0x08), ('t', 0x09), ('n', 0x0A), ('f', 0x0C), ('r', 0x0D), (doubleQuote, doubleQuote),
    (backslash, backslash)]

/-- The letters behind a backslash that a character's number follows, with the count of its digits. -/
def numericEscapes : List (CodeUnit × Nat) := [('u', 4), ('U', 8)]

/-- An escape behind its backslash, and what it stands for. The numbers of characters may be left
out of account. -/
inductive Escape (numeric : Bool) : Text → Text → Prop
  | short {letter meant : CodeUnit} (isShort : (letter, meant) ∈ shortEscapes) :
      Escape numeric [letter] [meant]
  | number {letter : CodeUnit} {digits : Text} (counts : numeric = true)
      (isNumeric : (letter, digits.length) ∈ numericEscapes)
      (areDigits : ∀ unit ∈ digits, unit.isHexDigit = true)
      (isScalar : Text.hexDigitsValue digits ≤ 0x10FFFF)
      (notHalf : ¬(0xD800 ≤ Text.hexDigitsValue digits ∧ Text.hexDigitsValue digits ≤ 0xDFFF)) :
      Escape numeric (letter :: digits) (Text.ofScalar (Text.hexDigitsValue digits))

/-- Blanks and line endings. -/
inductive Spacing : Text → Prop
  | nil : Spacing []
  | blank {unit : CodeUnit} {rest : Text} (isBlank : unit.isSpaceOrTab = true)
      (more : Spacing rest) : Spacing (unit :: rest)
  | newline {rest : Text} (newline : Newline) (more : Spacing rest) :
      Spacing (newline.source ++ rest)

/-- The rest of a string behind its opening quotes, up to its closing quotes and with them, and the
text that it stands for. -/
inductive Body (dialect : Dialect) (quote : CodeUnit) (multiline numeric : Bool) :
    Text → Text → Prop
  | close : Body dialect quote multiline numeric (quotes quote multiline) []
  | unit {unit : CodeUnit} {rest text : Text} (allowed : dialect.isStringUnit unit = true)
      (goesOn : ¬quotes quote multiline <+: unit :: rest)
      (plain : quote = doubleQuote → unit ≠ backslash)
      (more : Body dialect quote multiline numeric rest text) :
      Body dialect quote multiline numeric (unit :: rest) (unit :: text)
  | escape {escape meant rest text : Text} (isDouble : quote = doubleQuote)
      (escapes : Escape numeric escape meant)
      (more : Body dialect quote multiline numeric rest text) :
      Body dialect quote multiline numeric (backslash :: (escape ++ rest)) (meant ++ text)
  | newline {rest text : Text} (isMultiline : multiline = true) (newline : Newline)
      (more : Body dialect quote multiline numeric rest text) :
      Body dialect quote multiline numeric (newline.source ++ rest)
        (dialect.lineBreak newline ++ text)
  /-- A backslash at the end of a line takes the blanks and line endings behind it away. -/
  | joined {spacing rest text : Text} (isDouble : quote = doubleQuote)
      (isMultiline : multiline = true) (blanks : Blanks) (newline : Newline)
      (isSpacing : Spacing spacing) (notBlank : ∀ unit ∈ rest.head?, unit.isSpaceOrTab = false)
      (unbroken : ∀ newline : Newline, ¬newline.source <+: rest)
      (more : Body dialect quote multiline numeric rest text) :
      Body dialect quote multiline numeric
        (backslash :: (blanks.source ++ (newline.source ++ (spacing ++ rest)))) text

/-- A string with its quotes, and the text that it stands for. A line ending right behind three
quotes is not part of the text. -/
inductive IsString (dialect : Dialect) : Text → Text → Prop
  | line {quote : CodeUnit} {rest text : Text} (isQuoted : IsQuote quote)
      (body : Body dialect quote false true rest text) : IsString dialect (quote :: rest) text
  | lines {quote : CodeUnit} {rest text : Text} (isQuoted : IsQuote quote)
      (unbroken : ∀ newline : Newline, ¬newline.source <+: rest)
      (body : Body dialect quote true true rest text) :
      IsString dialect (quotes quote true ++ rest) text
  | brokenLines {quote : CodeUnit} {rest text : Text}
      (isQuoted : IsQuote quote) (newline : Newline)
      (body : Body dialect quote true true rest text) :
      IsString dialect (quotes quote true ++ newline.source ++ rest) text

/-! ### What is written -/

namespace Written

/-- One part of a key: a word, or a string on one line. -/
inductive KeyPart (dialect : Dialect) where
  | bare (name : Text) (notEmpty : name ≠ [])
      (areUnits : ∀ unit ∈ name, isBareKeyUnit unit = true)
  | quoted (quote : CodeUnit) (rest name : Text) (isQuoted : IsQuote quote)
      (body : Body dialect quote false true rest name)

/-- A key: parts with points between them. -/
inductive Key (dialect : Dialect) where
  | last (part : KeyPart dialect)
  | dotted (part : KeyPart dialect) (before after : Blanks) (others : Key dialect)

mutual

/-- A value. -/
inductive Value (dialect : Dialect) where
  | text (source text : Text) (isString : IsString dialect source text)
  | scalar (word : Text) (value : dialect.Scalar) (stands : dialect.scalar? word = some value)
  | array (items : Items dialect)
  | inlineTable (pairs : Pairs dialect)

/-- The items of an array behind its opening bracket. -/
inductive Items (dialect : Dialect) where
  | close (gap : Gap dialect)
  | item (before : Gap dialect) (value : Value dialect) (after : Gap dialect)
      (more : MoreItems dialect)

/-- What follows an item: the closing bracket, or a comma, which may stand before that bracket. -/
inductive MoreItems (dialect : Dialect) where
  | close
  | comma (items : Items dialect)

/-- The pairs of an inline table behind its opening brace. -/
inductive Pairs (dialect : Dialect) where
  | close (blanks : Blanks)
  | pair (before : Blanks) (pair : Pair dialect) (after : Blanks) (more : MorePairs dialect)

/-- What follows a pair: the closing brace, or a comma, which may stand before that brace. -/
inductive MorePairs (dialect : Dialect) where
  | close
  | comma (pairs : Pairs dialect)

/-- A key, an equals sign and a value. -/
inductive Pair (dialect : Dialect) where
  | mk (key : Key dialect) (before after : Blanks) (value : Value dialect)

end

/-- What a line has if it is not empty: a header, in double brackets or single ones, or a pair. -/
inductive Item (dialect : Dialect) where
  | header (double : Bool) (before : Blanks) (key : Key dialect) (after : Blanks)
  | pair (own : Pair dialect)

/-- A line without its ending. -/
structure Line (dialect : Dialect) where
  before : Blanks
  item : Option (Item dialect)
  after : Blanks
  comment : Option (Comment dialect)

/-- A document: lines with line endings between them. -/
inductive Document (dialect : Dialect) where
  | last (line : Line dialect)
  | more (line : Line dialect) (newline : Newline) (others : Document dialect)

/-! ### Sources -/

/-- The units of a part of a key. -/
def KeyPart.source : KeyPart dialect → Text
  | bare name _ _ => name
  | quoted quote rest _ _ _ => quote :: rest

/-- The units of a key. -/
def Key.source : Key dialect → Text
  | last part => part.source
  | dotted part before after others =>
    part.source ++ (before.source ++ ('.' : CodeUnit) :: (after.source ++ others.source))

mutual

/-- The units of a value. -/
def Value.source : Value dialect → Text
  | .text source _ _ => source
  | .scalar word _ _ => word
  | .array items => ('[' : CodeUnit) :: items.source
  | .inlineTable pairs => ('\x7b' : CodeUnit) :: pairs.source

/-- The units of the items of an array and of its closing bracket. -/
def Items.source : Items dialect → Text
  | .close gap => gap.source ++ [(']' : CodeUnit)]
  | .item before value after more =>
    before.source ++ (value.source ++ (after.source ++ more.source))

/-- The units behind an item. -/
def MoreItems.source : MoreItems dialect → Text
  | .close => [(']' : CodeUnit)]
  | .comma items => (',' : CodeUnit) :: items.source

/-- The units of the pairs of an inline table and of its closing brace. -/
def Pairs.source : Pairs dialect → Text
  | .close blanks => blanks.source ++ [('\x7d' : CodeUnit)]
  | .pair before pair after more => before.source ++ (pair.source ++ (after.source ++ more.source))

/-- The units behind a pair. -/
def MorePairs.source : MorePairs dialect → Text
  | .close => [('\x7d' : CodeUnit)]
  | .comma pairs => (',' : CodeUnit) :: pairs.source

/-- The units of a pair. -/
def Pair.source : Pair dialect → Text
  | .mk key before after value =>
    key.source ++ (before.source ++ ('=' : CodeUnit) :: (after.source ++ value.source))

end

/-- One bracket, or two. -/
def brackets (double : Bool) (bracket : CodeUnit) : Text :=
  if double then [bracket, bracket] else [bracket]

/-- The units of an item. -/
def Item.source : Item dialect → Text
  | .header double before key after =>
    brackets double '[' ++
      (before.source ++ (key.source ++ (after.source ++ brackets double ']')))
  | .pair own => own.source

/-- The units of the item of a line, if there is one. -/
def itemSource : Option (Item dialect) → Text
  | none => []
  | some item => item.source

/-- The units of a line. -/
def Line.source (line : Line dialect) : Text :=
  line.before.source ++ (itemSource line.item ++ (line.after.source ++ commentSource line.comment))

/-- The units of a document. -/
def Document.source : Document dialect → Text
  | last line => line.source
  | more line newline others => line.source ++ (newline.source ++ others.source)

/-! ### Meanings -/

/-- The name that a part of a key stands for. -/
def KeyPart.name : KeyPart dialect → Text
  | bare name _ _ => name
  | quoted _ _ name _ _ => name

/-- The names that a key stands for. -/
def Key.path : Key dialect → List Text
  | last part => [part.name]
  | dotted part _ _ others => part.name :: others.path

/-- The type of an item of an array. -/
inductive ItemType where
  | text
  | scalar (type : Nat)
  | array
  | table
  deriving DecidableEq, Repr

/-- The type of a value. -/
def typeOf (dialect : Dialect) : Draft.Value dialect.Scalar → ItemType
  | .text _ => .text
  | .scalar value => .scalar (dialect.type value)
  | .array _ => .array
  | .inlineTable _ => .table
  | .table _ _ => .table
  | .tables _ => .array

/-- Values have one type. -/
def HaveOneType (values : List (Draft.Value dialect.Scalar)) : Prop :=
  ∀ value ∈ values, ∀ other ∈ values, typeOf dialect value = typeOf dialect other

instance (values : List (Draft.Value dialect.Scalar)) : Decidable (HaveOneType values) :=
  inferInstanceAs (Decidable (∀ value ∈ values, ∀ other ∈ values, _ = _))

mutual

/-- What a value stands for. -/
def Value.draft? : Value dialect → Option (Draft.Value dialect.Scalar)
  | .text _ text _ => some (.text text)
  | .scalar _ value _ => some (.scalar value)
  | .array items =>
    items.drafts?.bind fun values => if HaveOneType values then some (.array values) else none
  | .inlineTable pairs => (pairs.define? []).map .inlineTable

/-- What the items of an array stand for. -/
def Items.drafts? : Items dialect → Option (List (Draft.Value dialect.Scalar))
  | .close _ => some []
  | .item _ value _ more =>
    value.draft?.bind fun first => more.drafts?.map fun others => first :: others

/-- What the further items of an array stand for. -/
def MoreItems.drafts? : MoreItems dialect → Option (List (Draft.Value dialect.Scalar))
  | .close => some []
  | .comma items => items.drafts?

/-- The fields of an inline table with what its pairs define. -/
def Pairs.define? : Pairs dialect → Draft.Table dialect.Scalar →
    Option (Draft.Table dialect.Scalar)
  | .close _, fields => some fields
  | .pair _ pair _ more, fields =>
    (pair.define? fields).bind fun fields => more.define? fields

/-- The fields of an inline table with what its further pairs define. -/
def MorePairs.define? : MorePairs dialect → Draft.Table dialect.Scalar →
    Option (Draft.Table dialect.Scalar)
  | .close, fields => some fields
  | .comma pairs, fields => pairs.define? fields

/-- The fields of a table with what a pair defines. -/
def Pair.define? : Pair dialect → Draft.Table dialect.Scalar →
    Option (Draft.Table dialect.Scalar)
  | .mk key _ _ value, fields =>
    value.draft?.bind fun value => fields.define? value key.path

end

/-- The draft behind an item. -/
def Item.next? (draft : Draft dialect.Scalar) : Item dialect → Option (Draft dialect.Scalar)
  | .header double _ key _ => draft.header? double key.path
  | .pair own => draft.change? own.define?

/-- The draft behind a line. -/
def Line.next? (draft : Draft dialect.Scalar) (line : Line dialect) :
    Option (Draft dialect.Scalar) :=
  match line.item with
  | none => some draft
  | some item => item.next? draft

/-- The draft behind the lines of a document. -/
def Document.next? (draft : Draft dialect.Scalar) :
    Document dialect → Option (Draft dialect.Scalar)
  | last line => line.next? draft
  | more line _ others => (line.next? draft).bind fun draft => others.next? draft

/-- The table that a document stands for. -/
def Document.table? (document : Document dialect) : Option (Table dialect.Scalar) :=
  (document.next? {}).map fun draft => Draft.plainFields draft.fields

end Written

/-- A function reads TOML: it gives the tables of documents, and accepts nothing else. -/
structure ReadsToml (dialect : Dialect) (parse : Text → Option (Table dialect.Scalar)) : Prop where
  accepts : ∀ (document : Written.Document dialect) (table : Table dialect.Scalar),
    document.table? = some table → parse document.source = some table
  sound : ∀ (text : Text) (table : Table dialect.Scalar), parse text = some table →
    ∃ document : Written.Document dialect, document.source = text ∧ document.table? = some table

end SourceLint.Toml
