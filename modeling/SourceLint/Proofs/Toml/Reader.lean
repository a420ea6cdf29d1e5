/-
This file proves that documents with one source stand for one table: an item is told from what follows
it, and where a line ends is told by its line feed. So each dialect has a reader, the function that
takes the source of a document to the table that the document stands for.
-/
import SourceLint.Proofs.Toml.Unambiguous

namespace SourceLint.Toml

open Cursor (isLayoutUnit)

variable {dialect : Dialect} {rest others : Text}

namespace Written

/-! ### Lines -/

/-- An item is told from what follows it. -/
theorem Item.splits {item further : Item dialect}
    (same : item.source ++ rest = further.source ++ others)
    (closes : Closes rest) (closesAgain : Closes others) :
    (∀ draft, item.next? draft = further.next? draft) ∧ rest = others := by
  have bracketEnds (double : Bool) (text : Text) :
      ∀ unit ∈ (brackets double (']' : CodeUnit) ++ text).head?, EndsKey unit := by
    cases double <;> (rintro _ ⟨⟩; exact ⟨⟨by decide, by decide⟩, by decide, by decide⟩)
  have notBlank (key : Key dialect) (text : Text) : ∀ unit ∈ (key.source ++ text).head?,
      unit.isSpaceOrTab = false := by
    obtain ⟨unit, others, splits, begins⟩ := key.exists_head
    rw [splits]
    rintro _ ⟨⟩
    exact begins.notBlank
  have notPair (double : Bool) (text others : Text) (pair : Pair dialect) :
      brackets double ('[' : CodeUnit) ++ text ≠ pair.source ++ others := by
    obtain ⟨unit, left, splits, begins⟩ := pair.exists_head
    rw [splits]
    intro same
    have isBracket : unit = '[' := by
      cases double <;> exact (List.cons.inj same).1.symm
    exact begins.ne (by decide) (by decide) isBracket
  cases item with
  | header double before key after =>
    cases further with
    | header doubleAgain furtherBefore furtherKey furtherAfter =>
      simp only [Item.source, List.append_assoc] at same
      have sameDouble := startsWith_brackets double before key
        (after.source ++ (brackets double ']' ++ rest))
      rw [same, startsWith_brackets] at sameDouble
      subst sameDouble
      obtain ⟨samePath, sameRest⟩ := key.unique furtherKey
        (blanks_unique (List.append_cancel_left same) (notBlank _ _) (notBlank _ _))
        (bracketEnds _ _) (bracketEnds _ _)
      refine ⟨fun draft => ?_, List.append_cancel_left sameRest⟩
      rw [Item.next?, Item.next?, samePath]
    | pair own =>
      simp only [Item.source, List.append_assoc] at same
      exact absurd same (notPair _ _ _ _)
  | pair own =>
    cases further with
    | header =>
      simp only [Item.source, List.append_assoc] at same
      exact absurd same.symm (notPair _ _ _ _)
    | pair furtherOwn =>
      obtain ⟨sameOwn, sameRest⟩ := own.define?_unique furtherOwn same closes closesAgain
      refine ⟨fun draft => ?_, sameRest⟩
      rw [Item.next?, Item.next?, sameOwn]

/-- An item begins as no blank, comment or line ending does. -/
theorem Item.endsTrivia (item : Item dialect) (text : Text) :
    ∀ unit ∈ (item.source ++ text).head?, EndsTrivia unit := by
  cases item with
  | header double => cases double <;> (rintro _ ⟨⟩; exact ⟨by decide, by decide⟩)
  | pair own =>
    obtain ⟨unit, others, splits, begins⟩ := own.exists_head
    rw [Item.source, splits]
    rintro _ ⟨⟩
    exact begins.endsTrivia

theorem Item.head?_ne_none (item : Item dialect) (text : Text) :
    (item.source ++ text).head? ≠ none := by
  rw [ne_eq, List.head?_eq_none_iff, List.append_eq_nil_iff]
  rintro ⟨isNil, -⟩
  cases item with
  | header double => cases double <;> cases isNil
  | pair own => exact List.ne_nil_of_length_pos own.length_source_pos isNil

/-- Behind the blanks of an empty line comes its comment, its line ending or nothing. -/
theorem head?_lineRest (comment : Option (Comment dialect)) (ending : Option Newline)
    (tail : IsTail ending rest) :
    ∀ unit ∈ (commentSource comment ++ (endingSource ending ++ rest)).head?,
      unit.isSpaceOrTab = false ∧ ¬EndsTrivia unit := by
  cases comment with
  | some comment =>
    rintro _ ⟨⟩
    exact ⟨by decide, fun ends => ends.2 rfl⟩
  | none =>
    cases ending with
    | none =>
      obtain rfl := tail rfl
      exact nofun
    | some newline =>
      cases newline <;>
        (rintro _ ⟨⟩; exact ⟨by decide, fun ends => absurd ends.1 (by decide)⟩)

theorem closes_behind (line : Line dialect) (ending : Option Newline) (tail : IsTail ending rest) :
    Closes (line.behind ++ (endingSource ending ++ rest)) := by
  rw [Line.behind, List.append_assoc]
  refine closes_blanks _ (closes_commentSource _ ?_)
  cases ending with
  | some newline => exact closes_newline newline rest
  | none => exact tail rfl ▸ closes_nil

/-- What a line does can be told from its source, and behind its item there is only one line feed. -/
theorem Line.splits {line further : Line dialect} {ending endingAgain : Option Newline}
    (same : line.source ++ (endingSource ending ++ rest) =
      further.source ++ (endingSource endingAgain ++ others))
    (tail : IsTail ending rest) (tailAgain : IsTail endingAgain others) :
    (∀ draft, line.next? draft = further.next? draft) ∧
      ∃ front frontAgain, 0x0A ∉ front ∧ 0x0A ∉ frontAgain ∧
        front ++ (endingSource ending ++ rest) =
          frontAgain ++ (endingSource endingAgain ++ others) := by
  have noFeed (line : Line dialect) : 0x0A ∉ line.before.source ++ line.behind :=
    mt List.mem_append.mp (not_or.mpr ⟨line.before.lineFeed_not_mem, line.lineFeed_not_mem_behind⟩)
  -- an empty line is told from one with an item by what comes behind the blanks
  have notEmpty (line further : Line dialect) (item : Item dialect) (empty : line.item = none)
      (isItem : further.item = some item) {rest text : Text} {ending : Option Newline}
      (tail : IsTail ending rest)
      (same : line.source ++ (endingSource ending ++ rest) = further.source ++ text) : False := by
    simp only [Line.source, empty, isItem, itemSource, List.nil_append, List.append_assoc] at same
    have behind := head?_lineRest line.comment ending tail
    have ends := item.endsTrivia (further.after.source ++ (commentSource further.comment ++ text))
    have toItem := skipSpace_blanks_eq further.before 0 _ fun unit first =>
      not_isSpaceOrTab_of_endsTrivia (ends unit first)
    rw [← same, skipSpace_blanks, skipSpace_blanks_eq _ _ _ fun unit first => (behind unit first).1]
      at toItem
    have sameRest := congrArg Cursor.rest toItem
    dsimp only at sameRest
    rw [← sameRest] at ends
    obtain ⟨unit, first⟩ := Option.ne_none_iff_exists'.mp (item.head?_ne_none
      (further.after.source ++ (commentSource further.comment ++ text)))
    rw [← sameRest] at first
    exact (behind unit first).2 (ends unit first)
  cases isItem : line.item with
  | none =>
    cases isFurther : further.item with
    | none =>
      refine ⟨fun draft => by rw [Line.next?, Line.next?, isItem, isFurther], _, _, noFeed line,
        noFeed further, ?_⟩
      simpa only [Line.source, isItem, isFurther, itemSource, List.nil_append, Line.behind,
        List.append_assoc] using same
    | some item => exact (notEmpty line further item isItem isFurther tail same).elim
  | some item =>
    cases isFurther : further.item with
    | none => exact (notEmpty further line item isFurther isItem tailAgain same.symm).elim
    | some furtherItem =>
      have whole (line : Line dialect) (item : Item dialect) (isItem : line.item = some item)
          (text : Text) :
          line.source ++ text = line.before.source ++ (item.source ++ (line.behind ++ text)) := by
        simp only [Line.source, isItem, itemSource, Line.behind, List.append_assoc]
      rw [whole line item isItem, whole further furtherItem isFurther] at same
      have sameItem := blanks_unique same
        (fun unit first => not_isSpaceOrTab_of_endsTrivia (item.endsTrivia _ unit first))
        fun unit first => not_isSpaceOrTab_of_endsTrivia (furtherItem.endsTrivia _ unit first)
      obtain ⟨applies, sameRest⟩ := Item.splits sameItem (closes_behind line ending tail)
        (closes_behind further endingAgain tailAgain)
      refine ⟨fun draft => ?_, _, _, line.lineFeed_not_mem_behind, further.lineFeed_not_mem_behind,
        sameRest⟩
      rw [Line.next?, Line.next?, isItem, isFurther]
      exact applies draft

/-- The first line feed ends the line. -/
theorem ending_unique {front frontAgain : Text} {ending endingAgain : Option Newline}
    (same : front ++ (endingSource ending ++ rest) = frontAgain ++ (endingSource endingAgain ++ others))
    (noFeed : 0x0A ∉ front) (noFeedAgain : 0x0A ∉ frontAgain) (tail : IsTail ending rest)
    (tailAgain : IsTail endingAgain others) : ending.isSome = endingAgain.isSome ∧ rest = others := by
  have lengths := (skipLine_tail noFeed ending tail 0).1
  have lengthsAgain := (skipLine_tail noFeedAgain endingAgain tailAgain 0).1
  rw [same] at lengths
  have sameLength := lengths.symm.trans lengthsAgain
  have hasFeed (newline : Newline) : 0x0A ∈ newline.source := by cases newline <;> decide
  refine ⟨?_, ?_⟩
  · cases ending with
    | none =>
      cases endingAgain with
      | none => rfl
      | some newline =>
        obtain rfl := tail rfl
        refine absurd ?_ noFeed
        rw [endingSource, List.append_nil, List.append_nil] at same
        rw [same]
        exact List.mem_append_right _ (List.mem_append_left _ (hasFeed newline))
    | some newline =>
      cases endingAgain with
      | some => rfl
      | none =>
        obtain rfl := tailAgain rfl
        refine absurd ?_ noFeedAgain
        rw [endingSource.eq_def none, List.append_nil, List.append_nil] at same
        rw [← same]
        exact List.mem_append_right _ (List.mem_append_left _ (hasFeed newline))
  · rw [← List.append_assoc, ← List.append_assoc] at same
    refine (List.append_inj same ?_).2
    simp only [Nat.zero_add] at sameLength
    rw [List.length_append, List.length_append]
    exact sameLength

/-! ### Documents -/

/-- What a document does can be told from its source. -/
theorem Document.next?_unique (document further : Document dialect)
    (same : document.source = further.source) (draft : Draft dialect.Scalar) :
    document.next? draft = further.next? draft := by
  induction document generalizing further draft with
  | last line =>
    cases further with
    | last furtherLine =>
      have whole : line.source ++ (endingSource none ++ []) =
          furtherLine.source ++ (endingSource none ++ []) := by
        simpa only [endingSource, List.append_nil, Document.source] using same
      exact (Line.splits whole isTail_none isTail_none).1 draft
    | more furtherLine newline furtherOthers =>
      have whole : line.source ++ (endingSource none ++ []) =
          furtherLine.source ++ (endingSource (some newline) ++ furtherOthers.source) := by
        simpa only [endingSource, List.append_nil, Document.source] using same
      obtain ⟨-, front, frontAgain, noFeed, noFeedAgain, sameRest⟩ :=
        Line.splits whole isTail_none (isTail_some newline _)
      exact absurd (ending_unique sameRest noFeed noFeedAgain isTail_none
        (isTail_some newline _)).1 Bool.false_ne_true
  | more line newline lines inductionHypothesis =>
    cases further with
    | last furtherLine =>
      have whole : line.source ++ (endingSource (some newline) ++ lines.source) =
          furtherLine.source ++ (endingSource none ++ []) := by
        simpa only [endingSource, List.append_nil, Document.source] using same
      obtain ⟨-, front, frontAgain, noFeed, noFeedAgain, sameRest⟩ :=
        Line.splits whole (isTail_some newline _) isTail_none
      exact absurd (ending_unique sameRest noFeed noFeedAgain (isTail_some newline _)
        isTail_none).1 Bool.false_ne_true.symm
    | more furtherLine furtherNewline furtherLines =>
      have whole : line.source ++ (endingSource (some newline) ++ lines.source) =
          furtherLine.source ++ (endingSource (some furtherNewline) ++ furtherLines.source) := same
      obtain ⟨applies, front, frontAgain, noFeed, noFeedAgain, sameRest⟩ :=
        Line.splits whole (isTail_some newline _) (isTail_some furtherNewline _)
      obtain ⟨-, sameLines⟩ := ending_unique sameRest noFeed noFeedAgain
        (isTail_some newline _) (isTail_some furtherNewline _)
      rw [Document.next?, Document.next?, applies]
      exact congrArg _ (funext fun draft => inductionHypothesis furtherLines sameLines draft)

/-- Documents with one source stand for one table. -/
theorem Document.table?_unique {document further : Document dialect}
    (same : document.source = further.source) : document.table? = further.table? := by
  rw [Document.table?, Document.table?, document.next?_unique further same]

end Written

/-! ### The reader of a dialect -/

open Classical in
/-- What a text stands for: the table of the document that is written so, if there is one. -/
noncomputable def readerOf (dialect : Dialect) (text : Text) : Option (Table dialect.Scalar) :=
  if written : ∃ document : Written.Document dialect, document.source = text then
    written.choose.table?
  else none

theorem readerOf_source (document : Written.Document dialect) :
    readerOf dialect document.source = document.table? := by
  have written : ∃ further : Written.Document dialect, further.source = document.source :=
    ⟨document, rfl⟩
  rw [readerOf, dif_pos written]
  exact Written.Document.table?_unique written.choose_spec

theorem readsToml_readerOf (dialect : Dialect) : ReadsToml dialect (readerOf dialect) := by
  refine ⟨fun document table isTable => (readerOf_source document).trans isTable,
    fun text table reads => ?_⟩
  rw [readerOf] at reads
  split at reads
  case isTrue written => exact ⟨written.choose, written.choose_spec, reads⟩
  case isFalse => cases reads

/-! ### A dialect -/

theorem isWord_of_areScalarUnits {word : Text} (notEmpty : word ≠ [])
    (areUnits : ∀ unit ∈ word, isScalarUnit unit = true) : IsWord word := by
  refine ⟨?_, ?_, fun unit member => Or.inl (areUnits unit member)⟩
  · obtain ⟨unit, rest, rfl⟩ := List.exists_cons_of_ne_nil notEmpty
    exact ⟨unit, rest, rfl, areUnits unit List.mem_cons_self⟩
  · obtain ⟨front, unit, rfl⟩ := (List.eq_nil_or_concat' word).resolve_left notEmpty
    exact ⟨front, unit, rfl, areUnits unit (List.mem_append_right _ List.mem_cons_self)⟩

/-- A dialect with truth values only. -/
def truthValues : Dialect where
  Scalar := Bool
  type _ := 0
  scalar? word :=
    if word = Text.ofString "true" then some true
    else if word = Text.ofString "false" then some false else none
  isWord_of_scalar? word value stands := by
    split at stands
    case isTrue isTrue => exact isTrue ▸ isWord_of_areScalarUnits (by decide) (by decide)
    case isFalse =>
      split at stands
      case isTrue isFalse => exact isFalse ▸ isWord_of_areScalarUnits (by decide) (by decide)
      case isFalse => cases stands
  lineBreak newline := newline.source
  isStringUnit unit := decide (0x20 ≤ unit ∧ unit ≠ 0x7F)
  not_isStringUnit_of_break unit isBreak := by
    obtain rfl | rfl := isBreak <;> decide
  isStringUnit_of_printable unit printable short := by
    refine decide_eq_true ⟨printable, ?_⟩
    rintro rfl
    exact absurd short (by decide)
  isCommentUnit unit := unit != 0x0A
  not_isCommentUnit_lineFeed := by decide

end SourceLint.Toml
