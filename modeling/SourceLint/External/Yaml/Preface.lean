/-
What stands before a node: its anchor and tag, the indicator that introduces it, blanks, line breaks
and comments. The reading of these tokens refuses what may not stand there: an indicator twice or
after a property, properties without a blank after them, a comment without a blank before it, and
tabs that would have to count as indent.
-/
import SourceLint.External.Yaml.Outline

namespace SourceLint.External.Yaml

/-- What follows the tokens before a node. -/
inductive Follower where
  | nothing
  | token (token : Token)
  | node (node : Outline)

/-- The first of a key and the tokens after it. -/
def Follower.ofParts (node : Option Outline) (tokens : Option (List Token)) : Follower :=
  match node, tokens with
  | some key, _ => .node key
  | none, some (first :: _) => .token first
  | none, _ => .nothing

/-- Properties before it need no blank in between. -/
def Follower.allowsTouching : Follower → Bool
  | .nothing => true
  | .token next => next.kind = .space || next.kind = .newline || next.kind = .comma
  | .node (.flowScalar scalar _) => scalar.kind = .scalar && scalar.text.isEmpty
  | .node _ => false

/-- A collection by indentation follows. -/
def Follower.isBlockCollection : Follower → Bool
  | .node next => next.isBlockCollection
  | _ => false

/-- A collection in brackets follows. -/
def Follower.isFlowCollection : Follower → Bool
  | .node (.flow _ _ _ _) => true
  | _ => false

/-- Where the tokens stand: what introduces the node, whether that is inside a flow collection, and
the indent of the collection. -/
structure Setting where
  indicator : TokenKind
  inFlow : Bool
  parentIndent : Nat
  startsLine : Bool

/-- What was found before a node. -/
structure Preface where
  indicator : Option Token := none
  comma : Option Token := none
  anchor : Option Token := none
  tag : Option Token := none
  hasNewline : Bool := false
  /-- The last line break after a property. -/
  newlineAfterProperty : Option Token := none
  hasComment : Bool := false
  stop : Nat
  atNewline : Bool
  hasSpace : Bool
  /-- The last token was a property. -/
  needsSpace : Bool := false
  /-- The last token held a tab. -/
  tab : Option Token := none

namespace Preface

/-- An anchor without a name. -/
def hasEmptyAnchor (preface : Preface) : Bool :=
  preface.anchor.any fun token => token.text.length ≤ 1

/-- One more token before the node. -/
def add (setting : Setting) (follower : Follower) (preface : Preface) (token : Token) :
    Option Preface :=
  let touches :=
    preface.needsSpace && token.kind != .space && token.kind != .newline && token.kind != .comma
  let tabIndents :=
    preface.tab.isSome && preface.atNewline && token.kind != .comment && token.kind != .newline
  if touches || tabIndents then none
  else
    let preface := { preface with needsSpace := false, tab := none, stop := token.stop }
    let property : Preface :=
      { preface with atNewline := false, hasSpace := false, needsSpace := true }
    match token.kind with
    | .space =>
      let mayIndent :=
        !setting.inFlow && (setting.indicator != .documentStart || !follower.isFlowCollection) &&
          token.text.contains 0x09
      some { preface with tab := if mayIndent then some token else none, hasSpace := true }
    | .comment =>
      if preface.hasSpace then some { preface with hasComment := true, atNewline := false } else none
    | .newline =>
      let newlineAfterProperty :=
        if preface.anchor.isSome || preface.tag.isSome then some token
        else preface.newlineAfterProperty
      some { preface with
        atNewline := true, hasNewline := true, hasSpace := true
        newlineAfterProperty := newlineAfterProperty }
    | .anchor =>
      if preface.anchor.isSome then none
      else some { property with anchor := some token }
    | .tag =>
      if preface.tag.isSome then none
      else some { property with tag := some token }
    | kind =>
      if kind = setting.indicator then
        if preface.anchor.isSome || preface.tag.isSome || preface.indicator.isSome then none
        else
          some { preface with
            indicator := some token, hasSpace := false
            atNewline := kind = .sequenceEntry || kind = .explicitKey }
      else if kind = .comma && setting.inFlow && preface.comma.isNone then
        some { preface with comma := some token, atNewline := false, hasSpace := false }
      else none

end Preface

/-- What was found before a node may stand before what follows: no property touches it, and no tab counts
as indent. -/
def Preface.fits (setting : Setting) (follower : Follower) (preface : Preface) : Bool :=
  let tabIndents :=
    preface.tab.any fun tab =>
      (preface.atNewline && tab.indent ≤ setting.parentIndent) || follower.isBlockCollection
  !(preface.needsSpace && !follower.allowsTouching) && !tabIndents

/-- Reads the tokens before a node. `offset` is where the node stands if there are none. -/
def preface? (setting : Setting) (follower : Follower) (offset : Nat) (tokens : List Token) :
    Option Preface := do
  let preface ← tokens.foldlM (Preface.add setting follower)
    { stop := offset, atNewline := setting.startsLine, hasSpace := setting.startsLine }
  if preface.fits setting follower then some preface else none

/-- The tokens after a node hold nothing but blanks, line breaks and comments. `spaced` asks for a
blank before a comment. -/
def isCleanEnd (spaced : Bool) : Bool → List Token → Bool
  | _, [] => true
  | hasSpace, token :: rest =>
    match token.kind with
    | .space => isCleanEnd spaced true rest
    | .newline => isCleanEnd spaced true rest
    | .comment => (!spaced || hasSpace) && isCleanEnd spaced hasSpace rest
    | _ => false

/-- The position just past tokens that follow a position. -/
def endAfter (position : Nat) (tokens : List Token) : Nat :=
  (tokens.getLast?.map Token.stop).getD position

/-- Where an empty node stands that has a list of tokens before it and nothing after: behind the
last token that is no blank, comment or line break, and the spaces after that one. -/
def emptyNodePlace (offset : Nat) (before : List Token) : Nat :=
  let trivia := (before.reverse.takeWhile Outline.isTrivia).reverse
  match before.reverse.dropWhile Outline.isTrivia with
  | [] => (before.head?.map Token.start).getD offset
  | last :: _ => endAfter last.stop (trivia.takeWhile fun token => token.kind = .space)

end SourceLint.External.Yaml
