/-
This file says what the readers of the layout scanner do in one step: which units they look at, which
of the other readers they call, and where they go on. The inductions over nested arrays and inline
tables take their steps from here.
-/
import SourceLint.Proofs.Toml.Cursor

namespace SourceLint.Toml

/-! ### The four readers of the scanner -/

section

variable {steps : Nat} {cursor next : Cursor} {unit : CodeUnit} {others : Text}

theorem readValue_quoted (here : cursor.rest = unit :: others) (quoted : isQuote unit = true) :
    readValue (steps + 1) cursor =
      (⟨cursor.position, (cursor.advance (stringLength unit cursor.rest)).position⟩, [],
        cursor.advance (stringLength unit cursor.rest)) := by
  rw [readValue, here]
  simp only [quoted, if_true]

theorem readValue_brace (here : cursor.rest = ('\x7b' : CodeUnit) :: others) :
    readValue (steps + 1) cursor =
      (⟨cursor.position, (readInlineEntries steps (cursor.advance 1)).2.position⟩,
        readInlineEntries steps (cursor.advance 1)) := by
  rw [readValue, here]
  rfl

theorem readValue_bracket (here : cursor.rest = ('[' : CodeUnit) :: others) :
    readValue (steps + 1) cursor =
      (⟨cursor.position, (readItems steps (cursor.advance 1)).position⟩, [],
        readItems steps (cursor.advance 1)) := by
  rw [readValue, here]
  rfl

theorem readValue_bare (here : cursor.rest = unit :: others) (unquoted : isQuote unit = false)
    (notBrace : unit ≠ '\x7b') (notBracket : unit ≠ '[') :
    readValue (steps + 1) cursor = (cursor.readBareValue.1, [], cursor.readBareValue.2) := by
  rw [readValue, here]
  simp only [unquoted, Bool.false_eq_true, if_false, notBrace, notBracket]

/-! A turn of the loop over the items or entries ends at the closing bracket or the end of the text,
or reads one. It is the last one if it stays where it was without a comma. -/

theorem readItems_done
    (closes : cursor.skipTrivia.rest = [] ∨ cursor.skipTrivia.isAt ']' = true) :
    readItems (steps + 1) cursor = cursor.skipTrivia.advance 1 := by
  rw [readItems]
  exact if_pos (by simpa using closes)

theorem readItems_stay {span : Span} {inline : List LayoutEntry}
    (goesOn : ¬(cursor.skipTrivia.rest = [] ∨ cursor.skipTrivia.isAt ']' = true))
    (reads : readValue steps cursor.skipTrivia = (span, inline, next))
    (noComma : next.skipTrivia.isAt ',' = false)
    (stays : next.skipTrivia.position = cursor.skipTrivia.position) :
    readItems (steps + 1) cursor = next.skipTrivia := by
  rw [readItems, if_neg (by simpa using goesOn), reads]
  simp only [noComma, stays, Bool.false_eq_true, if_true, if_false]

theorem readItems_turn {span : Span} {inline : List LayoutEntry}
    (goesOn : ¬(cursor.skipTrivia.rest = [] ∨ cursor.skipTrivia.isAt ']' = true))
    (reads : readValue steps cursor.skipTrivia = (span, inline, next))
    (moves : next.skipTrivia.isAt ',' = true ∨
      next.skipTrivia.position ≠ cursor.skipTrivia.position) :
    readItems (steps + 1) cursor = readItems steps (next.skipTrivia.past ',') := by
  rw [readItems, if_neg (by simpa using goesOn), reads, Cursor.past]
  dsimp only
  split
  case isTrue comma => rfl
  case isFalse noComma => rw [if_neg (moves.resolve_left noComma)]

theorem readInlineEntries_done
    (closes : cursor.skipSpace.rest = [] ∨ cursor.skipSpace.isAt '\x7d' = true) :
    readInlineEntries (steps + 1) cursor = ([], cursor.skipSpace.advance 1) := by
  rw [readInlineEntries]
  exact if_pos (by simpa using closes)

theorem readInlineEntries_stay {entry : LayoutEntry}
    (goesOn : ¬(cursor.skipSpace.rest = [] ∨ cursor.skipSpace.isAt '\x7d' = true))
    (reads : readEntry steps cursor.skipSpace = (entry, next))
    (noComma : next.skipSpace.isAt ',' = false)
    (stays : next.skipSpace.position = cursor.skipSpace.position) :
    readInlineEntries (steps + 1) cursor = ([entry], next.skipSpace) := by
  rw [readInlineEntries, if_neg (by simpa using goesOn), reads]
  simp only [noComma, stays, Bool.false_eq_true, if_true, if_false]

theorem readInlineEntries_turn {entry : LayoutEntry}
    (goesOn : ¬(cursor.skipSpace.rest = [] ∨ cursor.skipSpace.isAt '\x7d' = true))
    (reads : readEntry steps cursor.skipSpace = (entry, next))
    (moves : next.skipSpace.isAt ',' = true ∨
      next.skipSpace.position ≠ cursor.skipSpace.position) :
    readInlineEntries (steps + 1) cursor =
      (entry :: (readInlineEntries steps (next.skipSpace.past ',')).1,
        (readInlineEntries steps (next.skipSpace.past ',')).2) := by
  rw [readInlineEntries, if_neg (by simpa using goesOn), reads, Cursor.past]
  dsimp only
  split
  case isTrue comma => rfl
  case isFalse noComma => rw [if_neg (moves.resolve_left noComma)]

end

end SourceLint.Toml
