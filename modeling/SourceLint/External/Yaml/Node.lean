/-
The nodes that the reader of YAML makes. They know more of their scalars than the checks ask for,
because a mapping may not have a key twice.
-/
import SourceLint.External.Yaml.Number
import SourceLint.Yaml.Node

namespace SourceLint.External.Yaml

open SourceLint.Yaml (ScalarStyle)

/-- What a scalar stands for. -/
inductive Content where
  | text (text : Text)
  | boolean (value : Bool)
  | number (value : Number)
  /-- A date, bytes, or the sign that merges mappings; equal to nothing. -/
  | other
  deriving DecidableEq, Repr

/-- What a scalar stands for, as far as a check asks for it. -/
def Content.seen : Content → SourceLint.Yaml.Content
  | .text held => .text held
  | _ => .other

/-- A node of a document. -/
inductive Node where
  | null
  | scalar (content : Content) (style : ScalarStyle) (span : Span)
  | sequence (items : List Node)
  | mapping (entries : List (Node × Node))
  | alias

instance : Inhabited Node := ⟨.null⟩

/-- Two nodes are the same key: scalars that stand for the same. -/
def Node.sameKey : Node → Node → Bool
  | null, null => true
  | scalar (.text left) _ _, scalar (.text right) _ _ => left == right
  | scalar (.boolean left) _ _, scalar (.boolean right) _ _ => left == right
  | scalar (.number left) _ _, scalar (.number right) _ _ => left.sameKey right
  | _, _ => false

mutual

/-- A node as the checks see it. -/
def Node.seen : Node → SourceLint.Yaml.Node
  | .null => .null
  | .scalar content style span => .scalar content.seen style span
  | .sequence items => .sequence (itemsSeen items)
  | .mapping entries => .mapping (entriesSeen entries)
  | .alias => .alias

/-- The items of a sequence as the checks see them. -/
def itemsSeen : List Node → List SourceLint.Yaml.Node
  | [] => []
  | item :: items => item.seen :: itemsSeen items

/-- The entries of a mapping as the checks see them. -/
def entriesSeen : List (Node × Node) → List (SourceLint.Yaml.Node × SourceLint.Yaml.Node)
  | [] => []
  | (key, value) :: entries => (key.seen, value.seen) :: entriesSeen entries

end

end SourceLint.External.Yaml
