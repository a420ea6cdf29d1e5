/-
This file proves that the scanner never goes back. Each reader leaves the cursor where it was or
further on, also past the end of the text, and a value begins where its reader does. Further on along
a text there is less left to read.
-/
import SourceLint.Proofs.Toml.Scanning

namespace SourceLint.Toml

namespace Cursor

/-- Where a unit stands there is something left. -/
theorem ne_nil_of_isAt {cursor : Cursor} {unit : CodeUnit} (stands : cursor.isAt unit = true) :
    cursor.rest ≠ [] := by
  intro empty
  rw [isAt, empty] at stands
  cases stands

/-! ### Forward -/

theorem le_advance (cursor : Cursor) (count : Nat) :
    cursor.position ≤ (cursor.advance count).position := Nat.le_add_right _ _

theorem le_skipSpace (cursor : Cursor) : cursor.position ≤ cursor.skipSpace.position :=
  cursor.le_advance _

theorem le_skipTrivia (cursor : Cursor) : cursor.position ≤ cursor.skipTrivia.position :=
  cursor.le_advance _

theorem le_skipLine (cursor : Cursor) : cursor.position ≤ cursor.skipLine.position :=
  cursor.le_advance _

theorem le_past (unit : CodeUnit) (cursor : Cursor) :
    cursor.position ≤ (cursor.past unit).position := by
  rw [past]
  split
  · exact cursor.le_advance 1
  · exact Nat.le_refl _

/-- Behind a comma, or away from where it was, a cursor is further on. -/
theorem lt_past {cursor next : Cursor} (forward : cursor.position ≤ next.position)
    (moves : next.isAt ',' = true ∨ next.position ≠ cursor.position) :
    cursor.position < (next.past ',').position := by
  rw [past]
  split
  case isTrue comma => exact Nat.lt_succ_of_le forward
  case isFalse noComma =>
    exact Nat.lt_of_le_of_ne forward (moves.resolve_left noComma).symm

theorem le_readKeyPart (cursor : Cursor) : cursor.position ≤ cursor.readKeyPart.2.position := by
  rw [readKeyPart]
  split
  · exact Nat.le_refl _
  · dsimp only
    split <;> exact cursor.le_advance _

/-- The next part of a key ends behind the point before it. -/
theorem lt_readKeyPart_behind_point (cursor : Cursor) :
    cursor.position < (cursor.advance 1).skipSpace.readKeyPart.2.skipSpace.position :=
  calc
    cursor.position < (cursor.advance 1).position := Nat.lt_succ_self _
    _ ≤ (cursor.advance 1).skipSpace.position := le_skipSpace _
    _ ≤ (cursor.advance 1).skipSpace.readKeyPart.2.position := le_readKeyPart _
    _ ≤ _ := le_skipSpace _

theorem le_readKeyParts (fuel : Nat) (cursor : Cursor) :
    cursor.position ≤ (readKeyParts fuel cursor).2.position := by
  induction fuel generalizing cursor with
  | zero => exact Nat.le_refl _
  | succ fuel inductionHypothesis =>
    rw [readKeyParts]
    split
    · exact Nat.le_trans (Nat.le_of_lt cursor.lt_readKeyPart_behind_point) (inductionHypothesis _)
    · exact Nat.le_refl _

theorem le_readKey (cursor : Cursor) : cursor.position ≤ cursor.readKey.2.position :=
  calc
    cursor.position ≤ cursor.readKeyPart.2.position := cursor.le_readKeyPart
    _ ≤ cursor.readKeyPart.2.skipSpace.position := le_skipSpace _
    _ ≤ cursor.readKey.2.position :=
      le_readKeyParts (cursor.readKeyPart.2.skipSpace.rest.length + 1) cursor.readKeyPart.2.skipSpace

/-- The value of an entry begins no earlier than its key. -/
theorem le_past_readKey (cursor : Cursor) :
    cursor.position ≤ (cursor.readKey.2.skipSpace.past '=').skipSpace.position :=
  calc
    cursor.position ≤ cursor.readKey.2.position := cursor.le_readKey
    _ ≤ cursor.readKey.2.skipSpace.position := le_skipSpace _
    _ ≤ (cursor.readKey.2.skipSpace.past '=').position := le_past _ _
    _ ≤ (cursor.readKey.2.skipSpace.past '=').skipSpace.position := le_skipSpace _

namespace Along

variable {cursor next : Cursor} {content : Text}

theorem past (along : cursor.Along content) (unit : CodeUnit) : (cursor.past unit).Along content := by
  rw [Cursor.past]
  split
  · exact along.advance 1
  · exact along

/-- Further on in a text there is no more left to read. -/
theorem length_le (along : cursor.Along content) (after : next.Along content)
    (forward : cursor.position ≤ next.position) : next.rest.length ≤ cursor.rest.length := by
  rw [along, after, List.length_drop, List.length_drop]
  exact Nat.sub_le_sub_left forward _

/-- Strictly further on there is less left to read, as long as there is something. -/
theorem length_lt (along : cursor.Along content) (after : next.Along content)
    (notEmpty : cursor.rest ≠ []) (forward : cursor.position < next.position) :
    next.rest.length < cursor.rest.length := by
  have positive := List.length_pos_of_ne_nil notEmpty
  rw [along, List.length_drop] at positive ⊢
  rw [after, List.length_drop]
  omega

end Along

end Cursor

/-- The readers do not go back, and a value begins where it is read. -/
structure ReadForward (fuel : Nat) : Prop where
  value : ∀ cursor, (readValue fuel cursor).1.start = cursor.position ∧
    cursor.position ≤ (readValue fuel cursor).2.2.position
  entries : ∀ cursor, cursor.position ≤ (readInlineEntries fuel cursor).2.position
  items : ∀ cursor, cursor.position ≤ (readItems fuel cursor).position
  entry : ∀ cursor, cursor.position ≤ (readEntry fuel cursor).1.valueSpan.start ∧
    cursor.position ≤ (readEntry fuel cursor).2.position

theorem readForward (fuel : Nat) : ReadForward fuel := by
  induction fuel with
  | zero =>
    refine ⟨fun cursor => ?_, fun cursor => ?_, fun cursor => ?_, fun cursor => ?_⟩
    · rw [readValue]
      exact ⟨rfl, Nat.le_refl _⟩
    · rw [readInlineEntries]
    · rw [readItems]
    · rw [readEntry]
      exact ⟨Nat.le_refl _, Nat.le_refl _⟩
  | succ fuel readers =>
    refine ⟨fun cursor => ?_, fun cursor => ?_, fun cursor => ?_, fun cursor => ?_⟩
    · rw [readValue]
      split
      case h_1 => exact ⟨rfl, Nat.le_refl _⟩
      case h_2 =>
        split
        · exact ⟨rfl, cursor.le_advance _⟩
        · split
          · exact ⟨rfl, Nat.le_trans (cursor.le_advance 1) (readers.entries _)⟩
          · split
            · exact ⟨rfl, Nat.le_trans (cursor.le_advance 1) (readers.items _)⟩
            · exact ⟨rfl, cursor.le_advance _⟩
    · rw [readInlineEntries]
      dsimp only
      split
      · exact Nat.le_trans cursor.le_skipSpace (Cursor.le_advance _ 1)
      · have next := calc
          cursor.position ≤ cursor.skipSpace.position := cursor.le_skipSpace
          _ ≤ (readEntry fuel cursor.skipSpace).2.position := (readers.entry _).2
          _ ≤ (readEntry fuel cursor.skipSpace).2.skipSpace.position := Cursor.le_skipSpace _
        split
        · exact Nat.le_trans next (Nat.le_trans (Cursor.le_advance _ 1) (readers.entries _))
        · split
          · exact next
          · exact Nat.le_trans next (readers.entries _)
    · rw [readItems]
      dsimp only
      split
      · exact Nat.le_trans cursor.le_skipTrivia (Cursor.le_advance _ 1)
      · have next := calc
          cursor.position ≤ cursor.skipTrivia.position := cursor.le_skipTrivia
          _ ≤ (readValue fuel cursor.skipTrivia).2.2.position := (readers.value _).2
          _ ≤ (readValue fuel cursor.skipTrivia).2.2.skipTrivia.position := Cursor.le_skipTrivia _
        split
        · exact Nat.le_trans next (Nat.le_trans (Cursor.le_advance _ 1) (readers.items _))
        · split
          · exact next
          · exact Nat.le_trans next (readers.items _)
    · have toValue := cursor.le_past_readKey
      obtain ⟨start, forward⟩ := readers.value (cursor.readKey.2.skipSpace.past '=').skipSpace
      rw [readEntry]
      exact ⟨start ▸ toValue, Nat.le_trans toValue forward⟩

end SourceLint.Toml
