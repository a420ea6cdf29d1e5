/-
The nodes of a YAML document as the checks see them: what each scalar means, how it was written and
where its value stands. An alias is a node of its own and is never followed, because the node it
names is seen where it is anchored.
-/
import SourceLint.Span
import SourceLint.Text.Quoted

namespace SourceLint.Yaml

/-- What a scalar stands for. Only texts are of use to a check. -/
inductive Content where
  | text (text : Text)
  | other
  deriving DecidableEq, Repr

/-- How a scalar is written, as far as a new text in its place has to be quoted. -/
inductive ScalarStyle where
  | bare
  | singleQuoted
  | doubleQuoted
  deriving DecidableEq, Repr

/-- A node of a document. -/
inductive Node where
  | null
  | scalar (content : Content) (style : ScalarStyle) (span : Span)
  | sequence (items : List Node)
  | mapping (entries : List (Node × Node))
  | alias

instance : Inhabited Node := ⟨.null⟩

namespace Node

/-- The text of a scalar that stands for a text. -/
def text? : Node → Option Text
  | scalar (.text text) _ _ => some text
  | _ => none

/-- The place of the value of a scalar, without the anchor and tag before it. -/
def span? : Node → Option Span
  | scalar _ _ span => some span
  | _ => none

/-- A text written the way a scalar is: in quotes of the same kind, or as it is. -/
def requote : Node → Text → Text
  | scalar _ .singleQuoted _, text =>
    [0x27] ++ text.flatMap (fun unit => if unit = 0x27 then [0x27, 0x27] else [unit]) ++ [0x27]
  | scalar _ .doubleQuoted _, text => text.quote
  | _, text => text

/-- The items of a sequence. Other nodes have none. -/
def items : Node → List Node
  | sequence items => items
  | _ => []

/-- The entries of a mapping, each with the text of its key if that is a text. -/
def entries : Node → List (Option Text × Node)
  | mapping entries => entries.map fun entry => (entry.1.text?, entry.2)
  | _ => []

/-- The values of a mapping, in order. -/
def values (node : Node) : List Node := node.entries.map Prod.snd

/-- The values that a mapping has under a key, in order. -/
def valuesOf (node : Node) (key : Text) : List Node :=
  (node.entries.filter fun entry => entry.1 == some key).map Prod.snd

end Node

end SourceLint.Yaml
