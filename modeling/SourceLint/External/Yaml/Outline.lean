/-
The outline of a YAML document: which scalars, mappings and sequences stand in which, found from the
indents and indicators alone. Each entry keeps the tokens before its key, between key and value, and
after a scalar on its line, so that the values and the placing rules can be read off later.

The reader keeps a stack of what is open. A token either goes to the top of the stack, opens
something on it, or closes the top and is looked at again.
-/
import SourceLint.External.Yaml.Token

namespace SourceLint.External.Yaml

/-- An entry of a collection. A sequence uses the leading tokens and the value only. -/
structure Entry (α : Type) where
  /-- The tokens before the key, or before the value of a sequence entry. -/
  lead : List Token
  /-- The leading tokens hold a question mark. -/
  explicit : Bool := false
  key : Option α := none
  /-- The tokens between key and value. -/
  separator : Option (List Token) := none
  value : Option α := none
  /-- The mapping of the entry began at its colon, after the key had come. -/
  beganAtColon : Bool := false

/-- A node of an outline. Entries are kept the last first. -/
inductive Outline where
  /-- An alias, a plain scalar or a quoted scalar, with the tokens after it. -/
  | flowScalar (token : Token) (tail : Option (List Token))
  /-- A block scalar: the tokens of its header line, and its body. -/
  | blockScalar (indent : Nat) (header : List Token) (body : Option Token)
  | mapping (indent : Nat) (entries : List (Entry Outline))
  | sequence (indent : Nat) (entries : List (Entry Outline))
  /-- A collection in brackets, with its opening bracket and the tokens from the closing one on. -/
  | flow (opening : Token) (indent : Nat) (entries : List (Entry Outline)) (tail : List Token)

instance : Inhabited Outline := ⟨.mapping 0 []⟩

/-- What may be open. -/
inductive Frame where
  | document (start : Nat) (lead : List Token) (value : Option Outline) (tail : List Token)
  /-- An end marker and what follows it on its line. -/
  | documentEnd (tail : List Token)
  | node (outline : Outline)

/-- What a stream is made of, apart from blanks and comments. -/
inductive StreamPart where
  | directive (text : Text)
  | document (start : Nat) (lead : List Token) (value : Option Outline) (tail : List Token)
  | documentEnd (tail : List Token)

/-- The reader of outlines. -/
structure Outliner where
  /-- What is open, the innermost first. -/
  stack : List Frame := []
  /-- Nothing but blanks and indicators has come on this line yet. -/
  atNewLine : Bool := true
  indent : Nat := 0
  /-- A key has come on this line. -/
  onKeyLine : Bool := false
  /-- What has been closed on the outermost level, the last first. -/
  parts : List StreamPart := []

/-- What becomes of a token: it is used up, or it has closed the innermost frame and is looked at
again. -/
inductive Turn where
  | done (outliner : Outliner)
  | again (outliner : Outliner)

namespace Outline

/-! ### Tokens in lists -/

/-- Whether a list holds a token of some kind. -/
def holdsKind (tokens : List Token) (kind : TokenKind) : Bool :=
  tokens.any fun token => token.kind = kind

/-- A token that says nothing: blanks, line breaks and comments. -/
def isTrivia (token : Token) : Bool :=
  token.kind = .space || token.kind = .comment || token.kind = .newline

/-- A token that ends the search for the properties of a first key. -/
def stopsKeyProperties (token : Token) : Bool :=
  token.kind = .documentStart || token.kind = .explicitKey || token.kind = .mappingValue ||
    token.kind = .sequenceEntry || token.kind = .newline

/-- The leading tokens cut in two: those that stay with the parent, and those that belong to the
first key of a mapping that begins here, which are the last on the line without the blanks before
them. -/
def cutKeyProperties (tokens : List Token) : List Token × List Token :=
  let onLine := (tokens.reverse.takeWhile fun token => !stopsKeyProperties token).reverse
  let taken := onLine.dropWhile fun token => token.kind = .space
  (tokens.take (tokens.length - taken.length), taken)

/-! ### Nodes -/

/-- An alias, scalar or flow collection, which may stand on one line with a colon. -/
def isInline : Outline → Bool
  | flowScalar _ _ => true
  | flow _ _ _ _ => true
  | _ => false

/-- A collection by indentation. -/
def isBlockCollection : Outline → Bool
  | mapping _ _ => true
  | sequence _ _ => true
  | _ => false

/-- The tokens after a node on its line, if it can have any. -/
def tail? : Outline → Option (List Token)
  | flowScalar _ tail => tail
  | flow _ _ _ tail => some tail
  | _ => none

/-- A node with more tokens after it. -/
def addTail (more : List Token) : Outline → Outline
  | flowScalar token tail => flowScalar token (some (tail.getD [] ++ more))
  | flow opening indent entries tail => flow opening indent entries (tail ++ more)
  | other => other

/-- In a flow sequence an entry without a colon or question mark is a value, not a key. -/
def settleFlowEntry (entry : Entry Outline) : Entry Outline :=
  match entry.separator with
  | some separator =>
    if entry.value.isNone && !holdsKind entry.lead .explicitKey &&
        !holdsKind separator .mappingValue then
      match entry.key with
      | some key =>
        if key.isInline then
          { entry with key := none, separator := none, value := some (addTail separator key) }
        else
          { entry with
            key := none, separator := none, value := some key, lead := entry.lead ++ separator }
      | none => { entry with separator := none, lead := entry.lead ++ separator }
    else entry
  | none => entry

/-- A flow collection with its entries settled. -/
def settleFlow : Outline → Outline
  | flow opening indent entries tail =>
    if opening.kind = .flowSequenceStart then
      flow opening indent (entries.map settleFlowEntry) tail
    else flow opening indent entries tail
  | other => other

/-- A block collection whose last entry is nothing but blank lines and less indented comments, cut
into the collection without that entry and the tokens of the entry, which belong to the parent. -/
def cutTrailing (node : Outline) : Outline × Option (List Token) :=
  let cut (indent : Nat) (entries : List (Entry Outline)) (rebuild : List (Entry Outline) → Outline) :
      Outline × Option (List Token) :=
    match entries with
    | last :: rest =>
      if last.separator.isNone && last.value.isNone && !last.lead.isEmpty &&
          last.lead.all isTrivia &&
          (indent = 0 ||
            last.lead.all fun token => token.kind != .comment || token.indent < indent) then
        (rebuild rest, some last.lead)
      else (node, none)
    | [] => (node, none)
  match node with
  | mapping indent entries => cut indent entries (mapping indent)
  | sequence indent entries => cut indent entries (sequence indent)
  | other => (other, none)

end Outline

/-- A measure of tokens summed up over a list of them. -/
def sumOf (measure : Token → Nat) (tokens : List Token) : Nat :=
  tokens.foldr (fun token total => measure token + total) 0

/-- A measure of tokens summed up over all tokens of an outline. -/
def Outline.sum (measure : Token → Nat) : Outline → Nat
  | .flowScalar token tail => measure token + sumOf measure (tail.getD [])
  | .blockScalar _ header body => sumOf measure header + sumOf measure body.toList
  | .mapping _ entries => sumOfEntries entries
  | .sequence _ entries => sumOfEntries entries
  | .flow opening _ entries tail => measure opening + sumOfEntries entries + sumOf measure tail
where
  /-- The sum over the entries of a collection. -/
  sumOfEntries : List (Entry Outline) → Nat
    | [] => 0
    | ⟨lead, _, key, separator, value, _⟩ :: rest =>
      sumOf measure lead + sumOfOption key + sumOf measure (separator.getD []) +
        sumOfOption value + sumOfEntries rest
  /-- The sum over a node that may be missing. -/
  sumOfOption : Option Outline → Nat
    | none => 0
    | some node => node.sum measure

namespace Outliner

open Outline

/-! ### Closing -/

/-- The innermost frame put in the place of another. -/
def withTop (outliner : Outliner) (frame : Frame) : Outliner :=
  { outliner with stack := frame :: outliner.stack.drop 1 }

/-- A node opened on the stack. -/
def push (outliner : Outliner) (node : Outline) : Outliner :=
  { outliner with stack := .node node :: outliner.stack }

/-- A closed node with the indent that its parent gives it. -/
def adopt (parent : Frame) (node : Outline) : Outline :=
  let node :=
    match node with
    | .blockScalar _ header body =>
      let indent :=
        match parent with
        | .node (.mapping indent _) => indent
        | .node (.sequence indent _) => indent
        | .node (.flow _ indent _ _) => indent
        | _ => 0
      .blockScalar indent header body
    | .flow opening indent entries tail =>
      match parent with
      | .document _ _ _ _ => .flow opening 0 entries tail
      | _ => .flow opening indent entries tail
    | other => other
  settleFlow node

/-- The entries of a mapping with a node added: as the last value or key, if that is missing, or as
the key of a new entry. Also whether the node has become a value, and whether it is a key that still
needs its colon on the same line. -/
def addToMapping (entries : List (Entry Outline)) (node : Outline) :
    List (Entry Outline) × Bool × Bool :=
  match entries with
  | last :: rest =>
    if last.value.isSome then ({ lead := [], key := some node, separator := some [] } :: entries, false, true)
    else if last.separator.isSome then ({ last with value := some node } :: rest, true, false)
    else ({ last with key := some node, separator := some [] } :: rest, false, !last.explicit)
  | [] => ([{ lead := [], key := some node, separator := some [] }], false, true)

/-- The entries of a sequence with a node added: as the value of the last one, if that is missing, or of
a new one. -/
def addToSequence (entries : List (Entry Outline)) (node : Outline) : List (Entry Outline) :=
  match entries with
  | last :: rest =>
    if last.value.isSome then { lead := [], value := some node } :: entries
    else { last with value := some node } :: rest
  | [] => [{ lead := [], value := some node }]

/-- Entries with one more that has tokens before it only, if there are any. -/
def addTrailing (trailing : Option (List Token)) (entries : List (Entry Outline)) :
    List (Entry Outline) :=
  match trailing with
  | some lead => { lead := lead } :: entries
  | none => entries

/-- A frame with a closed node put into it, and whether the node is a key that needs its colon on the same
line, if the frame is a mapping and the node has not become a value. -/
def putInto (node : Outline) (parent : Frame) : Option (Frame × Option Bool) :=
  let cut := cutTrailing node
  match parent with
  | .document start lead _ tail =>
    some (.document start lead (some cut.1) (cut.2.getD tail), none)
  | .node (.mapping indent entries) =>
    let added := addToMapping entries cut.1
    if added.2.1 then some (.node (.mapping indent (addTrailing cut.2 added.1)), none)
    else
      let added := addToMapping entries node
      some (.node (.mapping indent added.1), some added.2.2)
  | .node (.sequence indent entries) =>
    some (.node (.sequence indent (addTrailing cut.2 (addToSequence entries cut.1))), none)
  | .node (.flow opening indent entries tail) =>
    some (.node (.flow opening indent (addToMapping entries node).1 tail), none)
  | _ => none

/-- Closes the innermost frame: puts it into its parent, or among the parts of the stream. -/
def pop (outliner : Outliner) : Option Outliner :=
  match outliner.stack with
  | [.document start lead value tail] =>
    some { outliner with
      stack := [], parts := .document start lead value tail :: outliner.parts }
  | [.documentEnd tail] =>
    some { outliner with stack := [], parts := .documentEnd tail :: outliner.parts }
  | .node node :: parent :: rest =>
    (putInto (adopt parent node) parent).map fun (parent, onKeyLine) =>
      { outliner with
        stack := parent :: rest, onKeyLine := onKeyLine.getD outliner.onKeyLine }
  | _ => none

/-- Closes the innermost frame so that the token can be looked at again. -/
def popAgain (outliner : Outliner) : Option Turn := outliner.pop.map .again

/-! ### Opening -/

/-- Takes the properties of a first key out of the tokens of the innermost frame. -/
def takeKeyProperties : Frame → Frame × List Token
  | .document start lead value tail =>
    let (kept, taken) := cutKeyProperties lead
    (.document start kept value tail, taken)
  | .node (.mapping indent (last :: rest)) =>
    match last.separator with
    | some separator =>
      let (kept, taken) := cutKeyProperties separator
      (.node (.mapping indent ({ last with separator := some kept } :: rest)), taken)
    | none =>
      let (kept, taken) := cutKeyProperties last.lead
      (.node (.mapping indent ({ last with lead := kept } :: rest)), taken)
  | .node (.sequence indent (last :: rest)) =>
    let (kept, taken) := cutKeyProperties last.lead
    (.node (.sequence indent ({ last with lead := kept } :: rest)), taken)
  | frame => (frame, [])

/-- Opens on the innermost frame what a token begins, if it can begin a node. -/
def openNode (outliner : Outliner) (token : Token) : Option Outliner :=
  match token.kind with
  | .alias | .scalar | .singleQuoted | .doubleQuoted =>
    some (outliner.push (.flowScalar token none))
  | .blockHeader => some (outliner.push (.blockScalar token.indent [token] none))
  | .flowMappingStart | .flowSequenceStart => some (outliner.push (.flow token token.indent [] []))
  | .sequenceEntry =>
    some (outliner.push (.sequence token.indent [{ lead := [token] }]))
  | .explicitKey | .mappingValue =>
    match outliner.stack with
    | [] => none
    | frame :: rest =>
      let (frame, taken) := takeKeyProperties frame
      let entry : Entry Outline :=
        if token.kind = .explicitKey then { lead := taken ++ [token], explicit := true }
        else { lead := taken, separator := some [token] }
      let outliner := { outliner with stack := frame :: rest, onKeyLine := true }
      some (outliner.push (.mapping token.indent [entry]))
  | _ => none

/-- Puts the innermost node under a first key: a mapping begins whose first key is that node. -/
def openMappingAt (outliner : Outliner) (key : Outline) (indent : Nat) (separator : List Token) :
    Outliner :=
  match outliner.stack with
  | _ :: parent :: rest =>
    let (parent, taken) := takeKeyProperties parent
    let entry : Entry Outline := { lead := taken, key := some key, separator := some separator }
    { outliner with
      stack := .node (.mapping indent [entry]) :: parent :: rest, onKeyLine := true }
  | _ => outliner

/-! ### Tokens by what is open -/

/-- A token after a node on its line. A line break closes the node. -/
def afterNode (outliner : Outliner) (token : Token) (extend : List Token → Frame) : Option Turn :=
  match token.kind with
  | .comma | .documentStart | .documentEnd | .flowSequenceEnd | .flowMappingEnd | .mappingValue =>
    outliner.popAgain
  | .newline =>
    ({ outliner.withTop (extend [token]) with onKeyLine := false }).pop.map .done
  | _ => some (.done (outliner.withTop (extend [token])))

/-- A token outside of documents. -/
def onStream (outliner : Outliner) (token : Token) : Option Turn :=
  match token.kind with
  | .directive =>
    some (.done { outliner with parts := .directive token.text :: outliner.parts })
  | .byteOrderMark | .space | .comment | .newline => some (.done outliner)
  | .bareDocument =>
    some (.done { outliner with stack := [.document token.start [] none []] })
  | .documentStart =>
    some (.done { outliner with stack := [.document token.start [token] none []] })
  | _ => none

/-- A token in a document, before or after its node. -/
def onDocument (outliner : Outliner) (token : Token) (start : Nat) (lead : List Token)
    (value : Option Outline) (tail : List Token) : Option Turn :=
  if value.isSome then
    afterNode outliner token fun more => .document start lead value (tail ++ more)
  else
    match token.kind with
    | .documentStart =>
      if lead.any fun token => !isTrivia token then outliner.popAgain
      else some (.done (outliner.withTop (.document start (lead ++ [token]) none tail)))
    | .anchor | .tag | .space | .comment | .newline =>
      some (.done (outliner.withTop (.document start (lead ++ [token]) none tail)))
    | _ => (outliner.openNode token).map .done

/-- A token after an alias or a scalar that is still open. A colon makes it a key. -/
def onScalar (outliner : Outliner) (token scalar : Token) (tail : Option (List Token)) :
    Option Turn :=
  if token.kind = .mappingValue then
    some (.done
      (outliner.openMappingAt (.flowScalar scalar none) scalar.indent (tail.getD [] ++ [token])))
  else
    afterNode outliner token fun more => .node (.flowScalar scalar (some (tail.getD [] ++ more)))

/-- A token in the header line of a block scalar, or its body. -/
def onBlockScalar (outliner : Outliner) (token : Token) (indent : Nat) (header : List Token) :
    Option Turn :=
  match token.kind with
  | .space | .comment | .newline =>
    some (.done (outliner.withTop (.node (.blockScalar indent (header ++ [token]) none))))
  | .blockBody =>
    (outliner.withTop (.node (.blockScalar indent header (some token)))).pop.map .done
  | _ => outliner.popAgain

/-- The entries of a collection with a line break in them. -/
def addNewline (entries : List (Entry Outline)) (token : Token) : List (Entry Outline) :=
  match entries with
  | [] => [{ lead := [token] }]
  | last :: rest =>
    match last.value with
    | some value =>
      let afterComment : Bool :=
        match (value.tail?.getD []).getLast? with
        | some before => decide (before.kind = .comment)
        | none => false
      if afterComment then { last with value := some (addTail [token] value) } :: rest
      else { lead := [token] } :: entries
    | none =>
      match last.separator with
      | some separator => { last with separator := some (separator ++ [token]) } :: rest
      | none => { last with lead := last.lead ++ [token] } :: rest

/-- The entries of a collection with blanks or a comment in them. A comment that is indented more
than the collection, with nothing but blank lines before it, goes to the entry above. -/
def addTrivia (outliner : Outliner) (entries : List (Entry Outline)) (indent : Nat)
    (token : Token) : List (Entry Outline) :=
  match entries with
  | [] => [{ lead := [token] }]
  | last :: rest =>
    if last.value.isSome then { lead := [token] } :: entries
    else
      match last.separator with
      | some separator => { last with separator := some (separator ++ [token]) } :: rest
      | none =>
        let stays := { last with lead := last.lead ++ [token] } :: rest
        if token.kind = .comment && outliner.indent > indent &&
            last.lead.all fun token => token.kind = .newline || token.kind = .space then
          match rest with
          | above :: others =>
            match above.value with
            | some value =>
              if value.tail?.isSome then
                { above with value := some (addTail (last.lead ++ [token]) value) } :: others
              else stays
            | none => stays
          | [] => stays
        else stays

/-- The positions of the line breaks in a list of tokens after which nothing indented comes; `found`
holds those seen so far. -/
def looseBreaks (indent : Nat) : Nat → List Nat → List Token → List Nat
  | _, found, [] => found
  | position, found, token :: rest =>
    match token.kind with
    | .newline => looseBreaks indent (position + 1) (found ++ [position]) rest
    | .space => looseBreaks indent (position + 1) found rest
    | .comment =>
      looseBreaks indent (position + 1) (if token.indent > indent then [] else found) rest
    | _ => looseBreaks indent (position + 1) [] rest

/-- The tokens before the value of a key cut at the second of the line breaks after which nothing
indented comes: what follows it belongs to the next entry. -/
def cutEmptyValue (separator : List Token) (indent : Nat) : List Token × List Token :=
  match looseBreaks indent 0 [] separator with
  | _ :: second :: _ => separator.splitAt second
  | _ => (separator, [])

/-- What a token meets in a mapping by indentation: the last entry and those before it, the tokens that
the last entry leaves to the next one, and whether the token stands at the indent of the mapping, where a
next entry may begin. -/
structure MappingPlace where
  indent : Nat
  last : Entry Outline
  rest : List (Entry Outline)
  lead : List Token
  atIndent : Bool
  atNext : Bool

/-- The place of a token of some kind. An empty value leaves the blank lines after it to the next
entry. -/
def mappingPlace (outliner : Outliner) (kind : TokenKind) (indent : Nat) (last : Entry Outline)
    (rest : List (Entry Outline)) : MappingPlace :=
  let atIndent := !outliner.onKeyLine && outliner.indent = indent
  let atNext := atIndent && (last.separator.isSome || last.explicit) && kind != .sequenceEntry
  match last.separator with
  | some separator =>
    if atNext && last.value.isNone then
      let (kept, lead) := cutEmptyValue separator indent
      ⟨indent, { last with separator := some kept }, rest, lead, atIndent, atNext⟩
    else ⟨indent, last, rest, [], atIndent, atNext⟩
  | none => ⟨indent, last, rest, [], atIndent, atNext⟩

/-- The mapping of a place with other entries in the place of the last one, as the innermost frame. -/
def withEntries (outliner : Outliner) (place : MappingPlace) (entries : List (Entry Outline)) :
    Outliner :=
  outliner.withTop (.node (.mapping place.indent (entries ++ place.rest)))

/-- A key has come on the line. -/
def keyLine (outliner : Outliner) : Outliner := { outliner with onKeyLine := true }

/-- A mapping with one entry opened on the mapping of a place. -/
def openNested (outliner : Outliner) (place : MappingPlace) (token : Token) (last entry : Entry Outline) :
    Outliner :=
  (outliner.keyLine.withEntries place [last]).push (.mapping token.indent [entry])

/-- An anchor or tag in a mapping: it begins a new entry, or belongs to the last one. -/
def addProperty (outliner : Outliner) (place : MappingPlace) (token : Token) : Outliner :=
  let last := place.last
  if place.atNext || last.value.isSome then
    outliner.keyLine.withEntries place [{ lead := place.lead ++ [token] }, last]
  else
    match last.separator with
    | some separator =>
      outliner.withEntries place [{ last with separator := some (separator ++ [token]) }]
    | none => outliner.withEntries place [{ last with lead := last.lead ++ [token] }]

/-- A question mark in a mapping: it begins a new entry, makes the last one explicit, or begins a mapping
in it. -/
def addQuestion (outliner : Outliner) (place : MappingPlace) (token : Token) : Outliner :=
  let last := place.last
  if last.separator.isNone && !last.explicit then
    outliner.keyLine.withEntries place
      [{ last with lead := last.lead ++ [token], explicit := true }]
  else if place.atNext || last.value.isSome then
    outliner.keyLine.withEntries place [{ lead := place.lead ++ [token], explicit := true }, last]
  else outliner.openNested place token last { lead := [token], explicit := true }

/-- A colon in a mapping whose last entry has a question mark. -/
def addColonExplicit (outliner : Outliner) (place : MappingPlace) (token : Token) : Outliner :=
  let last := place.last
  match last.separator with
  | none =>
    if holdsKind last.lead .newline then
      outliner.keyLine.withEntries place [{ last with key := none, separator := some [token] }]
    else
      let (kept, taken) := cutKeyProperties last.lead
      outliner.openNested place token { last with lead := kept }
        { lead := taken, separator := some [token] }
  | some separator =>
    if last.value.isSome then
      outliner.keyLine.withEntries place [{ lead := [], separator := some [token] }, last]
    else if holdsKind separator .mappingValue then
      outliner.openNested place token last { lead := place.lead, separator := some [token] }
    else if (last.key.any isInline) && !holdsKind separator .newline then
      let (kept, taken) := cutKeyProperties last.lead
      outliner.openNested place token { last with lead := kept, key := none, separator := none }
        { lead := taken, key := last.key, separator := some (separator ++ [token]), beganAtColon := true }
    else
      outliner.keyLine.withEntries place
        [{ last with separator := some (separator ++ place.lead ++ [token]) }]

/-- A colon in a mapping whose last entry has no question mark. -/
def addColonImplicit (outliner : Outliner) (place : MappingPlace) (token : Token) : Outliner :=
  let last := place.last
  match last.separator with
  | none =>
    outliner.keyLine.withEntries place [{ last with key := none, separator := some [token] }]
  | some separator =>
    if last.value.isSome || place.atNext then
      outliner.keyLine.withEntries place [{ lead := place.lead, separator := some [token] }, last]
    else if holdsKind separator .mappingValue then
      outliner.openNested place token last { lead := [], separator := some [token] }
    else
      outliner.keyLine.withEntries place
        [{ last with separator := some (separator ++ [token]) }]

/-- An alias, a plain scalar or a quoted one in a mapping: the key of a new entry or of the last one, or
its value. -/
def addScalar (outliner : Outliner) (place : MappingPlace) (token : Token) : Outliner :=
  let last := place.last
  let scalar : Outline := .flowScalar token none
  if place.atNext || last.value.isSome then
    outliner.keyLine.withEntries place
      [{ lead := place.lead, key := some scalar, separator := some [] }, last]
  else if last.separator.isSome then (outliner.withEntries place [last]).push scalar
  else
    outliner.keyLine.withEntries place [{ last with key := some scalar, separator := some [] }]

/-- A dash in a mapping: it begins a sequence, but not on the line of a key. -/
def addDash (outliner : Outliner) (place : MappingPlace) (token : Token) : Option Turn :=
  let onSameLine :=
    match place.last.separator with
    | some separator => !place.last.explicit && !holdsKind separator .newline
    | none => false
  if onSameLine then none
  else ((outliner.withEntries place [place.last]).openNode token).map .done

/-- Any other token in a mapping: it begins a node, as the key of a new entry where one may begin, or
closes the mapping. -/
def addOther (outliner : Outliner) (place : MappingPlace) (token : Token) : Option Turn :=
  let kept := outliner.withEntries place [place.last]
  match kept.openNode token with
  | none => kept.popAgain
  | some opened =>
    if place.atIndent then
      ((outliner.withEntries place [{ lead := place.lead }, place.last]).openNode token).map .done
    else some (.done opened)

/-- A token in a mapping by indentation that is no blank, line break or comment. -/
def onMappingPlace (outliner : Outliner) (place : MappingPlace) (token : Token) : Option Turn :=
  match token.kind with
  | .anchor | .tag => some (.done (outliner.addProperty place token))
  | .explicitKey => some (.done (outliner.addQuestion place token))
  | .mappingValue =>
    some (.done
      (if place.last.explicit then outliner.addColonExplicit place token
      else outliner.addColonImplicit place token))
  | .alias | .scalar | .singleQuoted | .doubleQuoted =>
    some (.done (outliner.addScalar place token))
  | .sequenceEntry => outliner.addDash place token
  | _ => outliner.addOther place token

/-- A token in a mapping by indentation. -/
def onMapping (outliner : Outliner) (token : Token) (indent : Nat)
    (entries : List (Entry Outline)) : Option Turn :=
  match token.kind, entries with
  | .newline, _ =>
    some (.done
      ({ outliner with onKeyLine := false }.withTop
        (.node (.mapping indent (addNewline entries token)))))
  | .space, _ =>
    some (.done (outliner.withTop (.node (.mapping indent (addTrivia outliner entries indent token)))))
  | .comment, _ =>
    some (.done (outliner.withTop (.node (.mapping indent (addTrivia outliner entries indent token)))))
  | _, [] => none
  | kind, last :: rest =>
    if outliner.indent < indent then outliner.popAgain
    else outliner.onMappingPlace (outliner.mappingPlace kind indent last rest) token

/-- Opens what a token begins, or closes the innermost frame. -/
def openOrPop (outliner : Outliner) (token : Token) : Option Turn :=
  match outliner.openNode token with
  | some opened => some (.done opened)
  | none => outliner.popAgain

/-- Opens what a token begins that is indented more than the innermost collection, or closes that. -/
def openBeyond (outliner : Outliner) (token : Token) (indent : Nat) : Option Turn :=
  if outliner.indent > indent then outliner.openOrPop token else outliner.popAgain

/-- A token in a sequence by indentation. -/
def onSequence (outliner : Outliner) (token : Token) (indent : Nat)
    (entries : List (Entry Outline)) : Option Turn :=
  let withEntries (entries : List (Entry Outline)) : Option Turn :=
    some (.done (outliner.withTop (.node (.sequence indent entries))))
  match entries with
  | [] => none
  | last :: rest =>
    match token.kind with
    | .newline => withEntries (addNewline entries token)
    | .space | .comment => withEntries (addTrivia outliner entries indent token)
    | .anchor | .tag =>
      if last.value.isSome || outliner.indent ≤ indent then outliner.openBeyond token indent
      else withEntries ({ last with lead := last.lead ++ [token] } :: rest)
    | .sequenceEntry =>
      if outliner.indent != indent then outliner.openBeyond token indent
      else if last.value.isSome || holdsKind last.lead .sequenceEntry then
        withEntries ({ lead := [token] } :: entries)
      else withEntries ({ last with lead := last.lead ++ [token] } :: rest)
    | _ => outliner.openBeyond token indent

/-- The entries of a flow collection with a comma or a question mark in them. -/
def addSeparator (entries : List (Entry Outline)) (token : Token) : List (Entry Outline) :=
  match entries with
  | last :: rest =>
    if last.separator.isSome then { lead := [token] } :: entries
    else { last with lead := last.lead ++ [token] } :: rest
  | [] => [{ lead := [token] }]

/-- The entries of a flow collection with a colon in them. -/
def addColon (entries : List (Entry Outline)) (token : Token) : List (Entry Outline) :=
  match entries with
  | last :: rest =>
    if last.value.isSome then { lead := [], separator := some [token] } :: entries
    else
      match last.separator with
      | some separator => { last with separator := some (separator ++ [token]) } :: rest
      | none => { last with key := none, separator := some [token] } :: rest
  | [] => [{ lead := [], separator := some [token] }]

/-- The entries of a flow collection with a blank, a line break, a comment or a property in them. -/
def addBefore (entries : List (Entry Outline)) (token : Token) : List (Entry Outline) :=
  match entries with
  | last :: rest =>
    if last.value.isSome then { lead := [token] } :: entries
    else
      match last.separator with
      | some separator => { last with separator := some (separator ++ [token]) } :: rest
      | none => { last with lead := last.lead ++ [token] } :: rest
  | [] => [{ lead := [token] }]

/-- The entries of a flow collection with a scalar as a key in them; nothing if it is a value. -/
def addKey? (entries : List (Entry Outline)) (scalar : Outline) : Option (List (Entry Outline)) :=
  match entries with
  | last :: rest =>
    if last.value.isSome then
      some ({ lead := [], key := some scalar, separator := some [] } :: entries)
    else if last.separator.isSome then none
    else some ({ last with key := some scalar, separator := some [] } :: rest)
  | [] => some [{ lead := [], key := some scalar, separator := some [] }]

/-- A token in a flow collection that is not closed yet. -/
def inFlow (outliner : Outliner) (token opening : Token) (indent : Nat)
    (entries : List (Entry Outline)) : Option Turn :=
  let withEntries (entries : List (Entry Outline)) : Option Turn :=
    some (.done (outliner.withTop (.node (.flow opening indent entries []))))
  match token.kind with
  | .comma | .explicitKey => withEntries (addSeparator entries token)
  | .mappingValue => withEntries (addColon entries token)
  | .space | .comment | .newline | .anchor | .tag => withEntries (addBefore entries token)
  | .alias | .scalar | .singleQuoted | .doubleQuoted =>
    match addKey? entries (.flowScalar token none) with
    | some entries => withEntries entries
    | none => some (.done (outliner.push (.flowScalar token none)))
  | .flowMappingEnd | .flowSequenceEnd =>
    some (.done (outliner.withTop (.node (.flow opening indent entries [token]))))
  | _ => outliner.openOrPop token

/-- The frame below the innermost one takes the colon or the line break after a flow collection that is
indented like a mapping. -/
def leavesToParent (token : Token) (indent : Nat) : Option Frame → Bool
  | some (.node (.mapping parentIndent (last :: _))) =>
    (token.kind = .mappingValue && parentIndent = indent) ||
      (token.kind = .newline && last.separator.isNone)
  | _ => false

/-- The frame is a flow collection. -/
def isFlow : Option Frame → Bool
  | some (.node (.flow _ _ _ _)) => true
  | _ => false

/-- A token after a flow collection that is closed but still innermost. A colon makes it a key. -/
def afterFlow (outliner : Outliner) (token opening : Token) (indent : Nat)
    (entries : List (Entry Outline)) (tail : List Token) : Option Turn :=
  let parent : Option Frame := outliner.stack[1]?
  if leavesToParent token indent parent then outliner.popAgain
  else if token.kind = .mappingValue && !isFlow parent then
    some (.done
      (outliner.openMappingAt (settleFlow (.flow opening indent entries (tail.take 1)))
        indent (tail.drop 1 ++ [token])))
  else
    afterNode outliner token fun more =>
      Frame.node (.flow opening indent entries (tail ++ more))

/-- A token on the line of an end marker. -/
def onDocumentEnd (outliner : Outliner) (token : Token) (tail : List Token) : Option Turn :=
  let extended := outliner.withTop (.documentEnd (tail ++ [token]))
  if token.kind = .bareDocument then some (.done outliner)
  else if token.kind = .newline then extended.pop.map .done
  else some (.done extended)

/-- A token looked at once. -/
def turn (outliner : Outliner) (token : Token) : Option Turn :=
  match outliner.stack with
  | [] => outliner.onStream token
  | .document start lead value tail :: _ => outliner.onDocument token start lead value tail
  | .documentEnd tail :: _ => outliner.onDocumentEnd token tail
  | .node (.flowScalar scalar tail) :: _ => outliner.onScalar token scalar tail
  | .node (.blockScalar indent header _) :: _ => outliner.onBlockScalar token indent header
  | .node (.mapping indent entries) :: _ => outliner.onMapping token indent entries
  | .node (.sequence indent entries) :: _ => outliner.onSequence token indent entries
  | .node (.flow opening indent entries []) :: _ => outliner.inFlow token opening indent entries
  | .node (.flow opening indent entries tail) :: _ =>
    outliner.afterFlow token opening indent entries tail

/-- A token looked at until it is used up. Each further look has closed a frame. -/
def settle : Nat → Outliner → Token → Option Outliner
  | 0, _, _ => none
  | fuel + 1, outliner, token =>
    match outliner.turn token with
    | none => none
    | some (.done outliner) => some outliner
    | some (.again outliner) => settle fuel outliner token

/-- Closes all frames. -/
def close : Nat → Outliner → Option Outliner
  | 0, outliner => if outliner.stack.isEmpty then some outliner else none
  | fuel + 1, outliner =>
    if outliner.stack.isEmpty then some outliner
    else
      match outliner.pop with
      | some outliner => close fuel outliner
      | none => none

/-- An end marker is the innermost frame. -/
def inEndMarker (outliner : Outliner) : Bool :=
  match outliner.stack with
  | .documentEnd _ :: _ => true
  | _ => false

/-- The place of a token found. An end marker closes all that is open, but not another end marker. -/
def placed (outliner : Outliner) (token : Token) : Option Outliner :=
  let depth := outliner.stack.length + 2
  if token.kind = .documentEnd && !outliner.inEndMarker then
    (close depth outliner).map fun outliner => { outliner with stack := [.documentEnd []] }
  else settle depth outliner token

/-- What a token does to the indent of its line. -/
def advanced (outliner : Outliner) (token : Token) : Outliner :=
  match token.kind with
  | .bareDocument => outliner
  | .newline | .blockBody => { outliner with atNewLine := true, indent := 0 }
  | .space =>
    if outliner.atNewLine && token.text.head? == some 0x20 then
      { outliner with indent := outliner.indent + token.text.length }
    else outliner
  | .explicitKey | .mappingValue | .sequenceEntry =>
    if outliner.atNewLine then { outliner with indent := outliner.indent + token.text.length }
    else outliner
  | _ => { outliner with atNewLine := false }

/-- A token read: first its place in the outline, then what it does to the indent of its line. -/
def read (outliner : Outliner) (token : Token) : Option Outliner :=
  (outliner.placed { token with indent := outliner.indent }).map fun outliner =>
    outliner.advanced token

end Outliner

/-- The parts of a stream of tokens; nothing if some token can stand nowhere. -/
def outline? (tokens : List Token) : Option (List StreamPart) := do
  let outliner ← tokens.foldlM Outliner.read {}
  let outliner ← Outliner.close (outliner.stack.length + 1) outliner
  return outliner.parts.reverse

end SourceLint.External.Yaml
