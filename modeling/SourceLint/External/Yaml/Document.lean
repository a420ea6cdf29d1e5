/-
The root node of a YAML text, and with it the whole reader of YAML. This stands in for the library that
the program is linked with when its checks are tried out; no theorem is about it. The outline is turned
into nodes from the left to the right, and all the rules on what may stand where are checked on the way:
a text that breaks one of them, or that holds more than one document, has no root.
-/
import SourceLint.External.Yaml.Scalar
import SourceLint.External.Yaml.Preface
import SourceLint.External.Yaml.Directives

namespace SourceLint.External.Yaml

open SourceLint.Yaml (ScalarStyle)

/-- A node with the position just past it and what follows it on its line. -/
structure Placed where
  node : Node
  stop : Nat
  /-- The node has a tag. -/
  tagged : Bool := false
  /-- A comment belongs to the node. -/
  commented : Bool := false

/-- A null that a set may have as a value: nothing else is said about it. -/
def Placed.isBareNull (placed : Placed) : Bool :=
  match placed.node with
  | .null => !placed.tagged && !placed.commented
  | _ => false

/-- A key is not on one line, so that it cannot be a key without a question mark. -/
def Outline.isMultiline : Outline → Bool
  | .flowScalar token tail =>
    token.text.contains 0x0A || (tail.getD []).any fun token => token.kind = .newline
  | .flow _ _ entries _ => entriesAreMultiline entries
  | _ => true
where
  /-- Some entry is not on one line. -/
  entriesAreMultiline : List (Entry Outline) → Bool
    | [] => false
    | ⟨lead, _, key, separator, value, _⟩ :: rest =>
      holdsKind lead .newline || holdsKind (separator.getD []) .newline ||
        optionIsMultiline key || optionIsMultiline value || entriesAreMultiline rest
  /-- A node that may be missing is not on one line. -/
  optionIsMultiline : Option Outline → Bool
    | none => false
    | some node => node.isMultiline

/-- The indent of a node. -/
def Outline.indent : Outline → Nat
  | .flowScalar token _ => token.indent
  | .blockScalar indent _ _ => indent
  | .mapping indent _ => indent
  | .sequence indent _ => indent
  | .flow _ indent _ _ => indent

/-! ### Scalars -/

/-- The full name of the tag before a node, if there is one; nothing if the tag has no meaning. -/
def Directives.tagOf? (directives : Directives) (preface : Preface) : Option (Option Text) :=
  match preface.tag with
  | none => some none
  | some token =>
    (directives.tagName? token.text).map fun name => if name.isEmpty then none else some name

/-- What a scalar with a tag or without one stands for; nothing in the inner place is null. Only a plain
scalar without a tag is tested for its shape; the tag of a single exclamation mark makes a text. -/
def Version.content? (version : Version) (tag : Option Text) (isKey plain : Bool) (text : Text) :
    Option (Option Content) :=
  match tag with
  | some name =>
    if name = Text.ofString "!" then some (some (.text text)) else version.taggedContent? name text
  | none => some (if plain then version.plainContent isKey text else some (.text text))

/-- A scalar node from what it stands for. -/
def Node.ofContent (content : Option Content) (style : ScalarStyle) (span : Span) : Node :=
  match content with
  | none => .null
  | some content => .scalar content style span

/-- A scalar node from its text. -/
def Directives.scalar? (directives : Directives) (preface : Preface) (isKey plain : Bool)
    (text : Text) (style : ScalarStyle) (span : Span) (stop : Nat) : Option Placed :=
  if preface.hasEmptyAnchor then none
  else do
    let tag ← directives.tagOf? preface
    let content ← directives.version.content? tag isKey plain text
    some { node := .ofContent content style span, stop := stop, tagged := tag.isSome }

/-- The node that stands where nothing is written. -/
def Directives.empty? (directives : Directives) (preface : Preface) (isKey : Bool) (place : Nat) :
    Option Placed :=
  (directives.scalar? preface isKey true [] .bare (.point place)
    (if preface.hasComment then preface.stop else place)).map fun placed =>
      { placed with commented := preface.hasComment }

/-- How a token that is a scalar is written. -/
def TokenKind.style : TokenKind → ScalarStyle
  | .singleQuoted => .singleQuoted
  | .doubleQuoted => .doubleQuoted
  | _ => .bare

/-- The text of a plain or quoted scalar. -/
def scalarText? (style : ScalarStyle) (source : Text) : Option Text :=
  match style with
  | .bare => plainText? source
  | .singleQuoted => singleQuotedText? source
  | .doubleQuoted => doubleQuotedText? source

/-- The node of an alias, which has neither anchor nor tag. -/
def alias? (preface : Preface) (name : Text) (stop : Nat) : Option Placed :=
  if preface.anchor.isSome || preface.tag.isSome || name.length ≤ 1 then none
  else some { node := .alias, stop := stop }

/-- An alias, a plain scalar or a quoted scalar. -/
def Directives.flowScalar? (directives : Directives) (preface : Preface) (isKey : Bool)
    (token : Token) (tail : List Token) : Option Placed :=
  let style := token.kind.style
  let stop := endAfter token.stop tail
  let placed :=
    if token.kind = .alias then alias? preface token.text stop
    else
      (scalarText? style token.text).bind fun text =>
        directives.scalar? preface isKey (style = .bare) text style ⟨token.start, token.stop⟩ stop
  if isCleanEnd true false tail then
    placed.map fun placed =>
      { placed with commented := preface.hasComment || Outline.holdsKind tail .comment }
  else none

/-- Each comment in the header line of a block scalar has a space before it on the line. -/
def spacedComment : Bool → List Token → Bool
  | _, [] => true
  | hasSpace, token :: rest =>
    match token.kind with
    | .space => spacedComment true rest
    | .newline => spacedComment hasSpace rest
    | .comment => hasSpace && spacedComment hasSpace rest
    | _ => false

/-- A block scalar. Its signs come first; only blanks and a comment after a blank may follow them. -/
def Directives.blockScalar? (directives : Directives) (preface : Preface) (isRoot isKey : Bool)
    (indent : Nat) (header : List Token) (body : Option Token) : Option Placed :=
  match header with
  | [] => none
  | sign :: rest =>
    if sign.kind = .blockHeader && spacedComment false rest then do
      let style ← blockStyle? sign.text
      let text ← blockText? style indent isRoot ((body.map Token.text).getD [])
      let stop := endAfter sign.stop (rest ++ body.toList)
      directives.scalar? preface isKey false text .bare ⟨sign.start, stop⟩ stop
    else none

/-! ### Collections -/

/-- Entries read so far, the last first, and where the next one begins. -/
structure Entries where
  offset : Nat
  /-- Where blank lines and comments after the last entry end. -/
  trailing : Option Nat := none
  /-- The keys with their values; a key without a colon has none. -/
  pairs : List (Placed × Option Placed) := []

/-- The key is not among those read. -/
def Entries.isNew (entries : Entries) (key : Placed) : Bool :=
  !entries.pairs.any fun pair => pair.1.node.sameKey key.node

/-- The entries with a comment that belongs to the value of the last of them. -/
def Entries.withComment (entries : Entries) : Entries :=
  match entries.pairs with
  | (key, some value) :: rest =>
    { entries with pairs := (key, some { value with commented := true }) :: rest }
  | _ => entries

/-- Items read so far, the last first. -/
structure Items where
  offset : Nat
  trailing : Option Nat := none
  nodes : List Placed := []

/-- The key of an item of a sequence that a tag makes a list of pairs: the key of a mapping with one
entry at most, or the item itself. -/
def pairKey? : Node → Option Node
  | .mapping [] => some .null
  | .mapping [(key, _)] => some key
  | .mapping _ => none
  | item => some item

/-- Two keys of an ordered mapping are the same also if they both stand for no number. -/
def sameOrderedKey (left right : Node) : Bool :=
  left.sameKey right ||
    match left, right with
    | .scalar (.number .notANumber) _ _, .scalar (.number .notANumber) _ _ => true
    | _, _ => false

/-- No two of the keys are the same. -/
def keysDiffer : List Node → Bool
  | [] => true
  | key :: rest => !(rest.any (sameOrderedKey key)) && keysDiffer rest

/-- A mapping with its tag. The values of a set are null. -/
def Directives.mapping? (directives : Directives) (preface : Preface)
    (pairs : List (Placed × Option Placed)) (stop : Nat) : Option Placed :=
  if preface.hasEmptyAnchor then none
  else do
    let tag ← directives.tagOf? preface
    let isSet := tag = some (Text.ofString "tag:yaml.org,2002:set")
    if isSet && !(pairs.all fun pair => pair.2.all Placed.isBareNull) then none
    else
      some
        { node := .mapping
            (pairs.reverse.map fun pair => (pair.1.node, (pair.2.map Placed.node).getD .null))
          stop := stop, tagged := tag.isSome }

/-- The nodes of the items of a sequence with a tag or without one. The items of ordered mappings are
pairs, which are no nodes. -/
def itemNodes? (tag : Option Text) (items : List Node) : Option (List Node) :=
  let isOrdered := tag = some (Text.ofString "tag:yaml.org,2002:omap")
  if isOrdered || tag = some (Text.ofString "tag:yaml.org,2002:pairs") then do
    let keys ← items.mapM pairKey?
    if isOrdered && !keysDiffer keys then none else some (keys.map fun _ => Node.null)
  else some items

/-- A sequence with its tag. -/
def Directives.sequence? (directives : Directives) (preface : Preface) (items : List Placed)
    (stop : Nat) : Option Placed :=
  if preface.hasEmptyAnchor then none
  else do
    let tag ← directives.tagOf? preface
    let nodes ← itemNodes? tag (items.reverse.map Placed.node)
    some { node := .sequence nodes, stop := stop, tagged := tag.isSome }

/-- The properties of a sequence by indentation end their line. -/
def Preface.endsPropertyLine (preface : Preface) : Bool :=
  let last := max ((preface.anchor.map Token.start).getD 0) ((preface.tag.map Token.start).getD 0)
  (preface.anchor.isNone && preface.tag.isNone) ||
    preface.newlineAfterProperty.any fun token => last ≤ token.start

/-- How far a colon may be from the start of a key without a question mark. -/
def longestKey : Nat := 1024

/-- How far a colon is from the start of its key: the width of the key with its properties and of
what stands between it and the colon. -/
def keyWidth (lead : List Token) (key : Option Outline) (afterKey : List Token) : Nat :=
  let width (token : Token) : Nat := token.text.length
  sumOf width (lead.dropWhile fun token => token.kind != .anchor && token.kind != .tag) +
    Outline.sum.sumOfOption width key +
      sumOf width (afterKey.takeWhile fun token => token.kind != .mappingValue)

/-- Whether a list of tokens holds a line break before the first token of some kind. -/
def breaksBefore (kind : TokenKind) : List Token → Bool
  | [] => false
  | token :: rest =>
    token.kind != kind && (token.kind = .newline || breaksBefore kind rest)

/-- A key may not stand where it does. Without a question mark it stands at the indent of its mapping
and is no sequence by indentation; a question mark stands there itself. -/
def isMisplaced (indent : Nat) (indicator : Option Token) (key : Option Outline) : Bool :=
  match indicator, key with
  | none, some (.sequence _ _) => true
  | none, some key => key.indent != indent
  | none, none => false
  | some indicator, _ => indicator.indent != indent

/-- No indicator and no property was found. -/
def Preface.isBare (preface : Preface) : Bool :=
  preface.indicator.isNone && preface.anchor.isNone && preface.tag.isNone

/-- What follows a key begins a line: the key is missing or it ends its line. -/
def keyEndsLine : Option Outline → Bool
  | none => true
  | some (.blockScalar _ _ _) => true
  | some _ => false

/-- A mapping by indentation. -/
def Outline.isMapping : Outline → Bool
  | .mapping _ _ => true
  | _ => false

/-- A key without a question mark may not have its value: there is no colon, a mapping by indentation
begins on the line of the colon, or the colon is too far from the start of the key. -/
def refusesValue (entry : Entry Outline) (preface : Preface) : Bool :=
  let nested := (entry.value.any Outline.isMapping) && !preface.hasNewline
  let measured := !entry.beganAtColon || !entry.lead.isEmpty
  preface.indicator.isNone || nested ||
    (measured && longestKey < keyWidth entry.lead entry.key (entry.separator.getD []))

/-- The value of a key, after what stands between them. A key without a colon has none. -/
def Entries.addValue (entries : Entries) (key : Placed) (preface : Preface) (afterKey : List Token)
    (compose : Preface → Nat → Option Placed) : Option Entries :=
  if preface.indicator.isNone then
    some { entries with offset := preface.stop, pairs := (key, none) :: entries.pairs }
  else do
    let value ← compose preface (emptyNodePlace preface.stop afterKey)
    some { entries with offset := value.stop, pairs := (key, some value) :: entries.pairs }

/-- An entry of a mapping by indentation after its key. -/
def Entries.addKey (entries : Entries) (indent : Nat) (entry : Entry Outline) (implicit : Bool)
    (key : Placed) (compose : Preface → Nat → Option Placed) : Option Entries := do
  let afterKey := entry.separator.getD []
  let preface ←
    preface? ⟨.mappingValue, false, indent, keyEndsLine entry.key⟩ (.ofParts entry.value none)
      key.stop afterKey
  if !entries.isNew key || (implicit && refusesValue entry preface) then none
  else entries.addValue key preface afterKey compose

/-- An entry of a mapping by indentation, with what its key and its value are composed by. -/
def Entries.add (entries : Entries) (indent : Nat) (entry : Entry Outline)
    (composeKey composeValue : Preface → Nat → Option Placed) : Option Entries := do
  let preface ←
    preface? ⟨.explicitKey, false, indent, true⟩ (.ofParts entry.key entry.separator) entries.offset
      entry.lead
  let implicit := preface.indicator.isNone
  if isMisplaced indent preface.indicator entry.key then none
  else if preface.isBare && entry.separator.isNone then
    some { entries with trailing := some preface.stop }
  else if implicit &&
      (preface.newlineAfterProperty.isSome || entry.key.any Outline.isMultiline) then none
  else do
    let key ← composeKey preface (emptyNodePlace preface.stop entry.lead)
    entries.addKey indent entry implicit key composeValue

/-- An item of a sequence by indentation. -/
def Items.add (items : Items) (indent : Nat) (entry : Entry Outline)
    (compose : Preface → Nat → Option Placed) : Option Items := do
  let preface ←
    preface? ⟨.sequenceEntry, false, indent, true⟩ (.ofParts entry.value none) items.offset entry.lead
  if preface.indicator.isNone then
    if preface.isBare && entry.value.isNone then some { items with trailing := some preface.stop }
    else none
  else do
    let node ← compose preface (emptyNodePlace preface.stop entry.lead)
    some { items with offset := node.stop, nodes := node :: items.nodes }

/-! ### Collections in brackets -/

/-- An entry in brackets is empty. -/
def isEmptyEntry (preface : Preface) (entry : Entry Outline) : Bool :=
  preface.isBare && entry.separator.isNone && entry.value.isNone

/-- Entries in brackets have commas between them, and only the last may be empty. -/
def fitsInFlow (preface : Preface) (isFirst isLast : Bool) (entry : Entry Outline) : Bool :=
  if isEmptyEntry preface entry then isLast && !(isFirst && preface.comma.isSome)
  else preface.comma.isSome != isFirst

/-- What stands before an entry in brackets. -/
def flowPreface? (indent offset : Nat) (isFirst isLast : Bool) (entry : Entry Outline) :
    Option Preface := do
  let preface ←
    preface? ⟨.explicitKey, true, indent, false⟩ (.ofParts entry.key entry.separator) offset entry.lead
  if fitsInFlow preface isFirst isLast entry then some preface else none

/-- The tokens before an entry in brackets begin with a comment, blanks and commas apart. It belongs
to the entry before. -/
def commentsOnLast (lead : List Token) : Bool :=
  ((lead.dropWhile fun token => token.kind = .comma || token.kind = .space).head?).any fun token =>
    token.kind = .comment

/-- The entries before one in brackets, with the comment that its tokens begin with. -/
def Entries.commentedBy (entries : Entries) (lead : List Token) : Entries :=
  if commentsOnLast lead then entries.withComment else entries

/-- A collection by indentation stands in an entry, which no entry in brackets may hold. -/
def holdsBlock (key value : Option Outline) : Bool :=
  (key.any Outline.isBlockCollection) || (value.any Outline.isBlockCollection)

/-- What stands between the key and the value of an entry in brackets. -/
def flowValuePreface? (indent : Nat) (entry : Entry Outline) (key : Placed) : Option Preface :=
  preface? ⟨.mappingValue, true, indent, false⟩ (.ofParts entry.value none) key.stop
    (entry.separator.getD [])

/-- An entry of a mapping in brackets, after what stands before it. -/
def Entries.addFlow (entries : Entries) (indent : Nat) (preface : Preface) (entry : Entry Outline)
    (composeKey composeValue : Preface → Nat → Option Placed) : Option Entries :=
  if isEmptyEntry preface entry then some { entries with offset := preface.stop }
  else do
    let entries := entries.commentedBy entry.lead
    let key ← composeKey preface (emptyNodePlace preface.stop entry.lead)
    let valuePreface ← flowValuePreface? indent entry key
    if holdsBlock entry.key entry.value || !entries.isNew key ||
        (entry.value.isSome && valuePreface.indicator.isNone) then none
    else entries.addValue key valuePreface (entry.separator.getD []) composeValue

/-- An item of a sequence in brackets that is a mapping of one entry. -/
def flowPair? (indent : Nat) (preface : Preface) (entry : Entry Outline)
    (composeKey composeValue : Preface → Nat → Option Placed) : Option Placed := do
  let implicit := preface.indicator.isNone
  let afterKey := entry.separator.getD []
  let key ← composeKey preface (emptyNodePlace preface.stop entry.lead)
  let valuePreface ← flowValuePreface? indent entry key
  let tooFar :=
    breaksBefore .mappingValue afterKey || longestKey < keyWidth entry.lead entry.key afterKey
  if implicit && valuePreface.indicator.isSome && tooFar then none
  else if valuePreface.indicator.isNone then
    if entry.value.isSome then none
    else some { node := .mapping [(key.node, .null)], stop := valuePreface.stop }
  else do
    let value ← composeValue valuePreface (emptyNodePlace valuePreface.stop afterKey)
    some { node := .mapping [(key.node, value.node)], stop := value.stop }

/-- An item of a sequence in brackets, after what stands before it. One with a colon or a question mark
is a mapping of one entry; without a question mark its key has to be on the line of its colon. -/
def Items.addFlow (items : Items) (indent : Nat) (preface : Preface) (entry : Entry Outline)
    (composeKey composeValue : Preface → Nat → Option Placed) : Option Items :=
  let implicit := preface.indicator.isNone
  if isEmptyEntry preface entry then some { items with offset := preface.stop }
  else if holdsBlock entry.key entry.value || (implicit && entry.key.any Outline.isMultiline) then none
  else do
    let node ←
      if implicit && entry.separator.isNone then composeValue preface preface.stop
      else flowPair? indent preface entry composeKey composeValue
    some { items with offset := node.stop, nodes := node :: items.nodes }

/-! ### Nodes -/

/-- A mapping by indentation with its entries. -/
def Directives.blockMapping? (directives : Directives) (preface : Preface) (entries : Entries) :
    Option Placed :=
  if entries.trailing.any fun trailing => 0 < trailing && trailing < entries.offset then none
  else directives.mapping? preface entries.pairs (entries.trailing.getD entries.offset)

/-- The kind of the bracket that closes a collection in brackets. -/
def closingKind (opening : TokenKind) : TokenKind :=
  if opening = .flowMappingStart then .flowMappingEnd else .flowSequenceEnd

/-- The bracket that closes a collection in brackets, and the tokens after it. -/
def closing? (opening : Token) (tail : List Token) : Option (Token × List Token) :=
  match tail with
  | [] => none
  | closing :: tail =>
    if closing.kind = closingKind opening.kind && isCleanEnd true false tail then
      some (closing, tail)
    else none

mutual

/-- The node of an outline, after what stands before it. -/
def Outline.compose (directives : Directives) (isRoot isKey : Bool) (preface : Preface) :
    Outline → Option Placed
  | .flowScalar token tail => directives.flowScalar? preface isKey token (tail.getD [])
  | .blockScalar indent header body =>
    directives.blockScalar? preface isRoot isKey indent header body
  | .mapping indent entries => do
    let entries ← composeMapping directives preface.stop indent entries
    directives.blockMapping? preface entries
  | .sequence indent entries =>
    if preface.endsPropertyLine then do
      let items ← composeSequence directives preface.stop indent entries
      directives.sequence? preface items.nodes (items.trailing.getD items.offset)
    else none
  | .flow opening indent entries tail => do
    let (closing, tail) ← closing? opening tail
    if opening.kind = .flowMappingStart then do
      let entries ← composeFlowMapping directives opening.stop indent true entries
      directives.mapping? preface entries.pairs (endAfter closing.stop tail)
    else do
      let items ← composeFlowSequence directives opening.stop indent true entries
      directives.sequence? preface items.nodes (endAfter closing.stop tail)

/-- A node that may be missing; then an empty one stands at a place. -/
def composeOption (directives : Directives) (isKey : Bool) :
    Option Outline → Preface → Nat → Option Placed
  | some node, preface, _ => node.compose directives false isKey preface
  | none, preface, place => directives.empty? preface isKey place

/-- The entries of a mapping by indentation. -/
def composeMapping (directives : Directives) (start indent : Nat) :
    List (Entry Outline) → Option Entries
  | [] => some { offset := start }
  | ⟨lead, explicit, key, separator, value, beganAtColon⟩ :: rest => do
    let entries ← composeMapping directives start indent rest
    entries.add indent ⟨lead, explicit, key, separator, value, beganAtColon⟩
      (composeOption directives true key) (composeOption directives false value)

/-- The items of a sequence by indentation. -/
def composeSequence (directives : Directives) (start indent : Nat) :
    List (Entry Outline) → Option Items
  | [] => some { offset := start }
  | ⟨lead, explicit, key, separator, value, beganAtColon⟩ :: rest => do
    let items ← composeSequence directives start indent rest
    items.add indent ⟨lead, explicit, key, separator, value, beganAtColon⟩
      (composeOption directives false value)

/-- The entries of a mapping in brackets. -/
def composeFlowMapping (directives : Directives) (start indent : Nat) (isLast : Bool) :
    List (Entry Outline) → Option Entries
  | [] => some { offset := start }
  | ⟨lead, explicit, key, separator, value, beganAtColon⟩ :: rest => do
    let entry : Entry Outline := ⟨lead, explicit, key, separator, value, beganAtColon⟩
    let entries ← composeFlowMapping directives start indent false rest
    let preface ← flowPreface? indent entries.offset rest.isEmpty isLast entry
    entries.addFlow indent preface entry (composeOption directives true key)
      (composeOption directives false value)

/-- The items of a sequence in brackets. -/
def composeFlowSequence (directives : Directives) (start indent : Nat) (isLast : Bool) :
    List (Entry Outline) → Option Items
  | [] => some { offset := start }
  | ⟨lead, explicit, key, separator, value, beganAtColon⟩ :: rest => do
    let entry : Entry Outline := ⟨lead, explicit, key, separator, value, beganAtColon⟩
    let items ← composeFlowSequence directives start indent false rest
    let preface ← flowPreface? indent items.offset rest.isEmpty isLast entry
    items.addFlow indent preface entry (composeOption directives true key)
      (composeOption directives false value)

end

/-! ### Documents -/

/-- The root of one document. A collection by indentation does not begin on the line of the start
marker. -/
def Directives.document? (directives : Directives) (start : Nat) (lead : List Token)
    (value : Option Outline) (tail : List Token) : Option Placed := do
  let preface ← preface? ⟨.documentStart, false, 0, true⟩ (.ofParts value (some tail)) start lead
  let onMarkerLine :=
    preface.indicator.isSome && (value.any Outline.isBlockCollection) && !preface.hasNewline
  if onMarkerLine || !isCleanEnd false false tail then none
  else
    match value with
    | some node => node.compose directives true false preface
    | none => directives.empty? preface false (emptyNodePlace preface.stop lead)

/-- What is known of a stream: its directives, whether they wait for a document, and its root. -/
structure Stream where
  directives : Directives := {}
  awaits : Bool := false
  root : Option Node := none

/-- One more part of a stream. There is one document at most, and directives need a start marker
after them. -/
def Stream.add (stream : Stream) : StreamPart → Option Stream
  | .directive line =>
    (stream.directives.add line).map fun directives =>
      { stream with directives := directives, awaits := true }
  | .document start lead value tail =>
    let marked := Outline.holdsKind lead .documentStart
    if stream.root.isSome || (stream.awaits && !marked) then none
    else
      (stream.directives.document? start lead value tail).map fun placed =>
        { stream with awaits := false, root := some placed.node }
  | .documentEnd tail =>
    if stream.root.isSome && isCleanEnd true false tail then some stream else none

/-- The root node of a text, or nothing if the text is not a single YAML document. A text without a
document is null. -/
def node? (content : Text) : Option Node := do
  let tokens ← tokens? content
  let parts ← outline? tokens
  let stream ← parts.foldlM Stream.add {}
  match stream.root with
  | some node => some node
  | none => if stream.awaits then none else some .null

/-- The root node of a text as the checks see it. -/
def root? (content : Text) : Option SourceLint.Yaml.Node := (node? content).map Node.seen

end SourceLint.External.Yaml
