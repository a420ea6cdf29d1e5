/-
This file proves that the place for a further key of a table never lies between the two units of a
line ending, whatever the text is. The scanner may lose its way in a text that is not written as it
expects, and even run past the end, but its cursor always has what the text has from there on.
-/
import SourceLint.Proofs.Toml.Cursor

namespace SourceLint.Toml

namespace Cursor

/-- A cursor has what a text has from its position on; past the end that is nothing. -/
def Along (cursor : Cursor) (content : Text) : Prop := cursor.rest = content.drop cursor.position

namespace Along

variable {cursor : Cursor} {content : Text} (along : cursor.Along content)

include along

theorem advance (count : Nat) : (cursor.advance count).Along content := by
  rw [Along, Cursor.advance, along, List.drop_drop]

theorem skipSpace : cursor.skipSpace.Along content := along.advance _

theorem skipTrivia : cursor.skipTrivia.Along content := along.advance _

theorem skipLine : cursor.skipLine.Along content := along.advance _

theorem readKeyPart : cursor.readKeyPart.2.Along content := by
  rw [Cursor.readKeyPart]
  split
  · exact along
  · dsimp only
    split
    · exact along.advance _
    · exact along.advance _

theorem readBareValue : cursor.readBareValue.2.Along content := along.advance _

theorem getElem?_position : content[cursor.position]? = cursor.rest.head? := by
  rw [along, List.head?_drop]

end Along

theorem Along.readKeyParts {cursor : Cursor} {content : Text} (along : cursor.Along content)
    (fuel : Nat) : (Cursor.readKeyParts fuel cursor).2.Along content := by
  induction fuel generalizing cursor with
  | zero => exact along
  | succ fuel inductionHypothesis =>
    rw [Cursor.readKeyParts]
    split
    · exact inductionHypothesis (along.advance 1).skipSpace.readKeyPart.skipSpace
    · exact along

theorem Along.readKey {cursor : Cursor} {content : Text} (along : cursor.Along content) :
    cursor.readKey.2.Along content :=
  along.readKeyPart.skipSpace.readKeyParts (cursor.readKeyPart.2.skipSpace.rest.length + 1)

end Cursor

open Cursor (Along)

/-- The readers up to a depth leave a cursor along the text. -/
structure ReadAlong (content : Text) (fuel : Nat) : Prop where
  value : ∀ {cursor : Cursor}, cursor.Along content → (readValue fuel cursor).2.2.Along content
  entries : ∀ {cursor : Cursor}, cursor.Along content →
    (readInlineEntries fuel cursor).2.Along content
  items : ∀ {cursor : Cursor}, cursor.Along content → (readItems fuel cursor).Along content
  entry : ∀ {cursor : Cursor}, cursor.Along content → (readEntry fuel cursor).2.Along content

theorem readAlong (content : Text) (fuel : Nat) : ReadAlong content fuel := by
  induction fuel with
  | zero =>
    exact ⟨fun along => by rw [readValue]; exact along,
      fun along => by rw [readInlineEntries]; exact along,
      fun along => by rw [readItems]; exact along, fun along => by rw [readEntry]; exact along⟩
  | succ fuel readers =>
    refine ⟨fun {cursor} along => ?_, fun {cursor} along => ?_, fun {cursor} along => ?_,
      fun {cursor} along => ?_⟩
    · rw [readValue]
      split
      case h_1 => exact along
      case h_2 unit rest here =>
        split
        · exact along.advance _
        · split
          · exact readers.entries (along.advance 1)
          · split
            · exact readers.items (along.advance 1)
            · exact along.readBareValue
    · rw [readInlineEntries]
      dsimp only
      split
      · exact along.skipSpace.advance 1
      · have next := (readers.entry along.skipSpace).skipSpace
        split
        · exact readers.entries (next.advance 1)
        · split
          · exact next
          · exact readers.entries next
    · rw [readItems]
      dsimp only
      split
      · exact along.skipTrivia.advance 1
      · have next := (readers.value along.skipTrivia).skipTrivia
        split
        · exact readers.items (next.advance 1)
        · split
          · exact next
          · exact readers.items next
    · rw [readEntry]
      dsimp only
      split
      · exact readers.value (along.readKey.skipSpace.advance 1).skipSpace
      · exact readers.value along.readKey.skipSpace.skipSpace

/-! ### The ends of tables -/

/-- The end of what a text has but blank lines is where the search began, behind a line feed, or the
end of the text. -/
theorem lastContentEnd_of (meets : Nat → Prop) (best position : Nat) (lines : List Text)
    (start : meets best)
    (breaks : ∀ index, (Text.join [0x0A] lines)[index]? = some 0x0A →
      meets (position + index + 1))
    (stop : meets (position + (Text.join [0x0A] lines).length)) :
    meets (lastContentEnd best position lines) := by
  fun_induction lastContentEnd best position lines with
  | case1 => exact start
  | case2 => exact start
  | case3 => exact stop
  | case4 best position line next rest after inductionHypothesis =>
    have whole : Text.join [0x0A] (line :: next :: rest) =
        line ++ (0x0A : CodeUnit) :: Text.join [0x0A] (next :: rest) :=
      Text.join_cons (List.cons_ne_nil next rest)
    have moved (index : Nat) : position + (line.length + 1 + index) = after + index := by
      simp only [after]
      omega
    rw [whole] at breaks stop
    refine inductionHypothesis ?_ (fun index found => ?_) ?_
    · split
      · exact start
      · exact breaks line.length (by simp)
    · rw [← moved]
      refine breaks _ ?_
      rw [List.getElem?_append_right (by omega), show line.length + 1 + index - line.length =
        index + 1 by omega]
      exact found
    · rw [← moved]
      simpa [Nat.add_assoc, Nat.add_comm, Nat.add_left_comm] using stop

theorem not_splitsBreak_of_length_le {content : Text} {position : Nat}
    (beyond : content.length ≤ position) : ¬content.SplitsBreak position := by
  refine content.not_splitsBreak_of_ne position ?_
  rw [List.getElem?_eq_none beyond]
  decide

theorem not_splitsBreak_after_lineFeed {content : Text} {position : Nat}
    (found : content[position]? = some 0x0A) : ¬content.SplitsBreak (position + 1) := by
  refine content.not_splitsBreak_of_before _ ?_
  rw [Nat.add_sub_cancel, found]
  decide

/-- A header line ends outside a line ending. -/
theorem not_splitsBreak_headerEnd {cursor : Cursor} {content : Text}
    (along : cursor.Along content) :
    ¬content.SplitsBreak (if cursor.skipLine.rest.isEmpty then cursor.skipLine.position
      else cursor.skipLine.position + 1) := by
  have next := along.skipLine
  split
  case isTrue empty =>
    have nothing : content.drop cursor.skipLine.position = [] :=
      next ▸ List.isEmpty_iff.mp empty
    exact not_splitsBreak_of_length_le (List.drop_eq_nil_iff.mp nothing)
  case isFalse some =>
    have stops := Text.head?_dropWhile_stops (· != 0x0A) cursor.rest
    rw [← Text.drop_length_takeWhile] at stops
    refine not_splitsBreak_after_lineFeed ?_
    rw [next.getElem?_position]
    obtain ⟨unit, rest, same⟩ := List.exists_cons_of_ne_nil
      (fun isNil => some (List.isEmpty_iff.mpr isNil) : cursor.skipLine.rest ≠ [])
    have isFeed := stops unit (by
      change unit ∈ cursor.skipLine.rest.head?
      rw [same]
      rfl)
    rw [same, List.head?_cons]
    simpa using isFeed

theorem not_splitsBreak_bodyEnd {content : Text} (path : List Text) {headerEnd stop : Nat}
    (start : ¬content.SplitsBreak headerEnd) (last : ¬content.SplitsBreak stop)
    (inside : stop ≤ content.length) :
    ¬content.SplitsBreak (LayoutTable.close content path headerEnd stop).bodyEnd := by
  refine lastContentEnd_of (fun position => ¬content.SplitsBreak position) headerEnd
    headerEnd _ start (fun index found => ?_) ?_
  · rw [Text.join_splitAt] at found
    exact not_splitsBreak_after_lineFeed (content.getElem?_slice_of_eq_some _ _ _ _ found)
  · rw [Text.join_splitAt, Text.slice, List.length_take, List.length_drop]
    by_cases forward : headerEnd ≤ stop
    · rwa [Nat.min_eq_left (by omega), Nat.add_sub_cancel' forward]
    · rwa [Nat.sub_eq_zero_of_le (by omega), Nat.zero_min]

/-- No table of a layout ends between the two units of a line ending. -/
theorem not_splitsBreak_layoutFrom {content : Text} (steps : Nat) (opened : Option OpenTable)
    (cursor : Cursor) (along : cursor.Along content)
    (whole : ∀ table ∈ opened, ¬content.SplitsBreak table.headerEnd) :
    ∀ table ∈ (layoutFrom content steps opened cursor).tables,
      ¬content.SplitsBreak table.bodyEnd := by
  have closed (stop : Nat) (last : ¬content.SplitsBreak stop) (inside : stop ≤ content.length)
      (opened : Option OpenTable)
      (whole : ∀ table ∈ opened, ¬content.SplitsBreak table.headerEnd) :
      ∀ table ∈ OpenTable.closeAt content stop opened, ¬content.SplitsBreak table.bodyEnd := by
    cases opened with
    | none => exact List.forall_mem_nil _
    | some table =>
      exact List.forall_mem_singleton.mpr
        (not_splitsBreak_bodyEnd table.path (whole table rfl) last inside)
  induction steps generalizing opened cursor with
  | zero => exact List.forall_mem_nil _
  | succ steps inductionHypothesis =>
    have here := along.skipTrivia
    rw [layoutFrom]
    dsimp only
    split
    · exact closed _ content.not_splitsBreak_length (Nat.le_refl _) opened whole
    · split
      case isTrue isHeader =>
        have bracket : content[cursor.skipTrivia.position]? = some '[' := by
          rw [here.getElem?_position]
          exact eq_of_beq isHeader
        obtain ⟨inside, -⟩ := List.getElem?_eq_some_iff.mp bracket
        have atBracket : ¬content.SplitsBreak cursor.skipTrivia.position := by
          refine content.not_splitsBreak_of_ne _ ?_
          rw [bracket]
          decide
        have afterKey := ((here.advance (if Text.startsWith cursor.skipTrivia.rest "[[" then 2
          else 1)).skipSpace.readKey)
        refine List.forall_mem_append.mpr
          ⟨closed _ atBracket (Nat.le_of_lt inside) opened whole,
            inductionHypothesis _ _ afterKey.skipLine ?_⟩
        rintro table ⟨⟩
        exact not_splitsBreak_headerEnd afterKey
      case isFalse =>
        exact inductionHypothesis opened _
          ((readAlong content _).entry here).skipLine whole

/-- The place for a further key of a table. -/
theorem not_splitsBreak_table? (content : Text) (path : List Text) (table : LayoutTable)
    (found : (Layout.ofText content).table? path = some table) :
    ¬content.SplitsBreak table.bodyEnd :=
  not_splitsBreak_layoutFrom _ none ⟨0, content⟩ rfl (fun _ member => by cases member) table
    (List.mem_of_find?_eq_some found)

end SourceLint.Toml
