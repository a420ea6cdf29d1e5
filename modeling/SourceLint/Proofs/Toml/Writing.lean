/-
This file writes small documents: keys of one word, strings without escapes, and lines with a header or
a pair in them. All dialects have them.
-/
import SourceLint.Proofs.Toml.Grammar

namespace SourceLint.Toml

variable {dialect : Dialect} {text : Text}

/-- No blanks. -/
def Blanks.nothing : Blanks := ⟨[], nofun⟩

/-- One space. -/
def Blanks.space : Blanks := ⟨[0x20], List.forall_mem_singleton.mpr rfl⟩

/-! ### Strings -/

/-- A text of ASCII units that stand for themselves between double quotes. -/
def IsPlainText (text : Text) : Prop :=
  ∀ unit ∈ text, 0x20 ≤ unit ∧ unit ≤ 0x7E ∧ unit ≠ doubleQuote ∧ unit ≠ backslash

instance (text : Text) : Decidable (IsPlainText text) :=
  inferInstanceAs (Decidable (∀ unit ∈ text, _))

theorem body_of_isPlainText (plain : IsPlainText text) :
    Body dialect doubleQuote false true (text ++ [doubleQuote]) text := by
  induction text with
  | nil => exact .close
  | cons unit text inductionHypothesis =>
    obtain ⟨⟨printable, short, notQuote, notEscape⟩, others⟩ := List.forall_mem_cons.mp plain
    refine .unit (dialect.isStringUnit_of_printable unit printable short) (fun closes => ?_)
      (fun _ => notEscape) (inductionHypothesis others)
    exact notQuote (List.cons_prefix_cons.mp closes).1.symm

theorem isString_of_isPlainText (plain : IsPlainText text) :
    IsString dialect (doubleQuote :: (text ++ [doubleQuote])) text :=
  .line (Or.inl rfl) (body_of_isPlainText plain)

namespace Written

/-- A string between double quotes. -/
def Value.ofText (text : Text) (plain : IsPlainText text) : Value dialect :=
  .text _ text (isString_of_isPlainText plain)

/-! ### Keys, pairs and lines -/

/-- A name that needs no quotes. -/
structure BareName where
  source : Text
  notEmpty : source ≠ []
  areUnits : ∀ unit ∈ source, isBareKeyUnit unit = true

/-- A name as a part of a key. -/
def KeyPart.ofName (name : BareName) : KeyPart dialect :=
  .bare name.source name.notEmpty name.areUnits

/-- A key of one name. -/
def Key.ofName (name : BareName) : Key dialect := .last (.ofName name)

/-- A pair with spaces around the sign. -/
def Pair.ofValue (key : Key dialect) (value : Value dialect) : Pair dialect :=
  .mk key .space .space value

/-- An inline table of one pair. -/
def Value.ofPair (pair : Pair dialect) : Value dialect :=
  .inlineTable (.pair .space pair .space .close)

/-- A line with nothing in it. -/
def Line.empty : Line dialect := ⟨.nothing, none, .nothing, none⟩

/-- A line with nothing but an item. -/
def Line.ofItem (item : Item dialect) : Line dialect := ⟨.nothing, some item, .nothing, none⟩

/-- A header without blanks. -/
def Item.ofHeader (double : Bool) (key : Key dialect) : Item dialect :=
  .header double .nothing key .nothing

/-- A document of items on lines of their own, each with its line feed. -/
def Document.ofItems : List (Item dialect) → Document dialect
  | [] => .last .empty
  | item :: items => .more (.ofItem item) .lineFeed (ofItems items)

end Written

end SourceLint.Toml
