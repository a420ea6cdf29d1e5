/-
This file proves that the end of a table is a place where a further line can be put: it lies between
two lines of the document, or at its end, never inside a value. From there on the text is blank up to
the next header, and a value ends with a unit that is no blank.
-/
import SourceLint.Proofs.Toml.Standing
import SourceLint.Proofs.Toml.Writing

namespace SourceLint.Toml

variable {dialect : Dialect} {path : List Text} {content text front back : Text}
  {position : Nat}

/-! ### The end of what is not blank -/

/-- What the search for the end of a table comes to: all of the text is blank, or what is blank begins
behind a line feed, or the last line of the text is not blank. -/
inductive ContentEnd (best position : Nat) (text : Text) : Nat → Prop
  | none (blank : ∀ unit ∈ text, unit.isBlank = true) : ContentEnd best position text best
  | behind {front back : Text} (splits : text = front ++ 0x0A :: back)
      (blank : ∀ unit ∈ back, unit.isBlank = true) :
      ContentEnd best position text (position + front.length + 1)
  | whole {front back : Text} (splits : text = front ++ back) (oneLine : 0x0A ∉ back)
      (inked : ¬∀ unit ∈ back, unit.isBlank = true) :
      ContentEnd best position text (position + text.length)

theorem contentEnd_lastContentEnd (text : Text) (best position : Nat) :
    ContentEnd best position text (lastContentEnd best position (Text.splitAt 0x0A text)) := by
  induction text using Text.inductionOnParts 0x0A generalizing best position with
  | last line oneLine =>
    rw [Text.splitAt_of_not_mem oneLine, lastContentEnd]
    split
    case isTrue blank => exact .none (by simpa using blank)
    case isFalse inked => exact .whole (List.nil_append line).symm oneLine (by simpa using inked)
  | more line rest oneLine inductionHypothesis =>
    obtain ⟨next, others, parts⟩ :=
      List.exists_cons_of_ne_nil (Text.splitAt_ne_nil 0x0A rest)
    rw [Text.splitAt_append_cons rest oneLine]
    rw [parts] at inductionHypothesis ⊢
    rw [lastContentEnd]
    generalize isBest : (if line.all CodeUnit.isBlank = true then best
      else position + line.length + 1) = new
    have further := inductionHypothesis new (position + line.length + 1)
    generalize lastContentEnd new (position + line.length + 1) (next :: others) = last at further
    cases further with
    | none blank =>
      subst isBest
      split
      case isTrue blankLine =>
        exact .none (List.forall_mem_append.mpr ⟨by simpa using blankLine,
          List.forall_mem_cons.mpr ⟨by decide, blank⟩⟩)
      case isFalse => exact .behind rfl blank
    | @behind front back splits blank =>
      have here : ContentEnd best position (line ++ 0x0A :: rest)
          (position + (line ++ 0x0A :: front).length + 1) := .behind (by rw [splits]; simp) blank
      convert here using 1
      simp only [List.length_append, List.length_cons]
      omega
    | @whole front back splits noFeed inked =>
      have here : ContentEnd best position (line ++ 0x0A :: rest)
          (position + (line ++ 0x0A :: rest).length) :=
        .whole (by rw [splits, ← List.cons_append, ← List.append_assoc]) noFeed inked
      convert here using 1
      simp only [List.length_append, List.length_cons]
      omega

namespace Written

/-! ### The text of a table -/

theorem Line.item_of_header? {line : Line dialect} {double : Bool} {key : Key dialect}
    (isHeader : line.header? = some (double, key)) :
    ∃ before after, line.item = some (.header double before key after) := by
  obtain ⟨_, item, _, _⟩ := line
  match item with
  | none => cases isHeader
  | some (.pair own) => cases isHeader
  | some (.header _ _ _ _) =>
    cases isHeader
    exact ⟨_, _, rfl⟩

theorem Line.opened_of_no_header {line : Line dialect} (noHeader : line.header? = none)
    (table : Option OpenTable) (stop : Nat) : line.opened table stop = table := by
  obtain ⟨_, item, _, _⟩ := line
  match item with
  | none => rfl
  | some (.pair own) => rfl
  | some (.header _ _ _ _) => cases noHeader

theorem Line.closed_of_no_header {line : Line dialect} (noHeader : line.header? = none)
    (content : Text) (table : Option OpenTable) (position : Nat) :
    line.closed content table position = [] := by
  obtain ⟨_, item, _, _⟩ := line
  match item with
  | none => rfl
  | some (.pair own) => rfl
  | some (.header _ _ _ _) => cases noHeader

theorem Line.opened_of_header {line : Line dialect} {double : Bool} {key : Key dialect}
    (isHeader : line.header? = some (double, key)) (table : Option OpenTable) (stop : Nat) :
    line.opened table stop = some ⟨key.scanned, stop⟩ := by
  obtain ⟨_, _, isItem⟩ := line.item_of_header? isHeader
  rw [Line.opened, isItem]

theorem Line.closed_of_header {line : Line dialect} {double : Bool} {key : Key dialect}
    (isHeader : line.header? = some (double, key)) (content : Text) (table : Option OpenTable)
    (position : Nat) : line.closed content table position =
      OpenTable.closeAt content (position + line.before.source.length) table := by
  obtain ⟨_, _, isItem⟩ := line.item_of_header? isHeader
  rw [Line.closed, isItem]

/-- The text of a document up to its first header. -/
def Document.body : Document dialect → Text
  | last line => if line.header?.isSome then line.before.source else line.source
  | more line newline others =>
    if line.header?.isSome then line.before.source
    else line.source ++ (newline.source ++ others.body)

theorem Document.exists_source_eq (document : Document dialect) :
    ∃ rest, document.source = document.body ++ rest := by
  induction document with
  | last line =>
    rw [Document.body]
    split
    · exact ⟨_, rfl⟩
    · exact ⟨[], (List.append_nil _).symm⟩
  | more line newline others inductionHypothesis =>
    rw [Document.body]
    split
    · exact ⟨itemSource line.item ++ (line.behind ++ (newline.source ++ others.source)),
        by simp only [Document.source, Line.source, Line.behind, List.append_assoc]⟩
    · obtain ⟨rest, same⟩ := inductionHypothesis
      exact ⟨rest, by simp only [Document.source, same, List.append_assoc]⟩

/-- The table that is open at the start of a document ends at its first header. -/
theorem Document.head?_tables (document : Document dialect) (table : OpenTable) (position : Nat)
    (whole : content.length = position + document.source.length) :
    (document.tables content (some table) position).head? =
      some (.close content table.path table.headerEnd (position + document.body.length)) := by
  induction document generalizing position with
  | last line =>
    rw [Document.tables, Document.body]
    cases isHeader : line.header? with
    | none =>
      rw [Line.closed_of_no_header isHeader, Line.opened_of_no_header isHeader, whole]
      rfl
    | some header =>
      rw [Line.closed_of_header isHeader]
      rfl
  | more line newline others inductionHypothesis =>
    rw [Document.tables, Document.body]
    cases isHeader : line.header? with
    | none =>
      simp only [Document.source, List.length_append] at whole
      rw [Line.closed_of_no_header isHeader, Line.opened_of_no_header isHeader, List.nil_append,
        inductionHypothesis _ (by omega), Option.isSome_none, if_neg Bool.false_ne_true,
        List.length_append, List.length_append]
      simp only [Nat.add_assoc]
    | some header =>
      rw [Line.closed_of_header isHeader]
      rfl

/-! ### A further line -/

/-- A document with a further line before its first header. -/
inductive Inserted (new : Line dialect) : Document dialect → Document dialect → Prop
  | here (document : Document dialect) : Inserted new document (.more new .lineFeed document)
  | atEnd {line : Line dialect} (noHeader : line.header? = none) :
      Inserted new (.last line) (.more line .lineFeed (.more new .lineFeed (.last .empty)))
  | behind {line : Line dialect} {document changed : Document dialect}
      (noHeader : line.header? = none) (newline : Newline) (inserted : Inserted new document changed) :
      Inserted new (.more line newline document) (.more line newline changed)

/-- A separator in a text with one is that one, or stands before it or behind it. -/
theorem append_cons_cases {unit : CodeUnit} {first last front back : Text}
    (same : first ++ unit :: last = front ++ unit :: back) :
    (∃ middle, front = first ++ unit :: middle ∧ last = middle ++ unit :: back) ∨
      (front = first ∧ back = last) ∨
      ∃ middle, first = front ++ unit :: middle ∧ back = middle ++ unit :: last := by
  obtain ⟨middle, rfl, splits⟩ | ⟨middle, rfl, splits⟩ := List.append_eq_append_iff.mp same
  · cases middle with
    | nil => exact Or.inr (Or.inl ⟨List.append_nil _, (List.cons.inj splits).2.symm⟩)
    | cons other middle =>
      obtain ⟨rfl, rfl⟩ := List.cons.inj splits
      exact Or.inl ⟨middle, rfl, rfl⟩
  · cases middle with
    | nil => exact Or.inr (Or.inl ⟨(List.append_nil _).symm, (List.cons.inj splits).2⟩)
    | cons other middle =>
      obtain ⟨rfl, rfl⟩ := List.cons.inj splits
      exact Or.inr (Or.inr ⟨middle, rfl, rfl⟩)

/-- A line with its ending has no line feed before blanks but in that ending. -/
theorem Line.not_blank_behind_lineFeed_append {line : Line dialect} {rest : Text}
    (noFeed : 0x0A ∉ rest) (same : line.source ++ rest = front ++ 0x0A :: back) :
    ¬∀ unit ∈ back, unit.isBlank = true := by
  intro blank
  obtain ⟨middle, rfl, splits⟩ | ⟨middle, isLine, splits⟩ := List.append_eq_append_iff.mp same
  · refine noFeed ?_
    rw [splits]
    exact List.mem_append_right _ List.mem_cons_self
  · cases middle with
    | nil =>
      have isRest : 0x0A :: back = rest := splits
      exact noFeed (isRest ▸ List.mem_cons_self)
    | cons unit middle =>
      obtain ⟨rfl, rfl⟩ := List.cons.inj splits
      exact line.not_blank_behind_lineFeed isLine fun unit member =>
        blank unit (List.mem_append_left _ member)

/-- A line can be put behind a line feed if the text of the table is blank from there on. -/
theorem Document.exists_inserted_of_blank (document : Document dialect) (new : Line dialect)
    (splits : document.body = front ++ 0x0A :: back) (blank : ∀ unit ∈ back, unit.isBlank = true) :
    ∃ changed rest, Inserted new document changed ∧ document.source = front ++ 0x0A :: rest ∧
      changed.source = front ++ 0x0A :: (new.source ++ 0x0A :: rest) := by
  have notBlanks (blanks : Blanks) : blanks.source ≠ front ++ 0x0A :: back := fun same =>
    blanks.lineFeed_not_mem (same ▸ List.mem_append_right _ List.mem_cons_self)
  induction document generalizing front with
  | last line =>
    rw [Document.body] at splits
    split at splits
    · exact absurd splits (notBlanks line.before)
    · exact absurd blank (line.not_blank_behind_lineFeed splits)
  | more line newline others inductionHypothesis =>
    rw [Document.body] at splits
    split at splits
    · exact absurd splits (notBlanks line.before)
    case isFalse noHeader =>
      have noHeader : line.header? = none := by simpa using noHeader
      obtain ⟨ending, isEnding, noFeed⟩ := newline.exists_front
      have whole (text : Text) : line.source ++ (newline.source ++ text) =
          (line.source ++ ending) ++ 0x0A :: text := by simp [isEnding]
      rw [whole] at splits
      obtain ⟨middle, rfl, isBody⟩ | ⟨rfl, rfl⟩ | ⟨middle, isLine, rfl⟩ := append_cons_cases splits
      · obtain ⟨changed, rest, inserted, source, changedSource⟩ := inductionHypothesis isBody
          fun blanks same => blanks.lineFeed_not_mem (same ▸ List.mem_append_right _ List.mem_cons_self)
        refine ⟨_, rest, .behind noHeader newline inserted, ?_, ?_⟩
        · rw [Document.source, source, whole]
          simp only [List.append_assoc, List.cons_append]
        · rw [Document.source, changedSource, whole]
          simp only [List.append_assoc, List.cons_append]
      · refine ⟨_, others.source, .behind noHeader newline (.here others), ?_, ?_⟩
        · rw [Document.source, whole]
        · rw [Document.source, Document.source, whole]
          rfl
      · exact absurd (fun unit member => blank unit (List.mem_append_left _ member))
          (Line.not_blank_behind_lineFeed_append noFeed isLine)

/-- A line can be put behind the last line, with a line feed before it, if that line is not blank. -/
theorem Document.exists_inserted_of_inked (document : Document dialect) (new : Line dialect)
    (splits : document.body = front ++ back) (oneLine : 0x0A ∉ back)
    (inked : ¬∀ unit ∈ back, unit.isBlank = true) :
    document.body = document.source ∧ ∃ changed, Inserted new document changed ∧
      changed.source = document.source ++ 0x0A :: (new.source ++ [0x0A]) := by
  have notBlanks (blanks : Blanks) {front : Text} : blanks.source ≠ front ++ back := fun same =>
    inked fun unit member => blanks.isBlank_of_mem (same ▸ List.mem_append_right _ member)
  induction document generalizing front with
  | last line =>
    rw [Document.body] at splits ⊢
    split at splits
    · exact absurd splits (notBlanks line.before)
    case isFalse noHeader =>
      rw [if_neg noHeader]
      refine ⟨rfl, _, .atEnd (by simpa using noHeader), ?_⟩
      simp only [Document.source, Newline.source, Line.empty, Blanks.nothing, Line.source, itemSource,
        commentSource,
        List.append_nil, List.singleton_append]
  | more line newline others inductionHypothesis =>
    rw [Document.body] at splits ⊢
    split at splits
    · exact absurd splits (notBlanks line.before)
    case isFalse noHeader =>
      have noHeader : line.header? = none := by simpa using noHeader
      obtain ⟨ending, isEnding, -⟩ := newline.exists_front
      have whole : (line.source ++ (ending ++ [0x0A])) ++ others.body = front ++ back := by
        rw [← splits, isEnding, List.append_assoc]
      -- the last line begins behind the line feed of this one
      obtain ⟨middle, isBody⟩ : ∃ middle, others.body = middle ++ back := by
        obtain ⟨middle, -, isBody⟩ | ⟨middle, isFront, isBack⟩ := List.append_eq_append_iff.mp whole
        · exact ⟨middle, isBody⟩
        · obtain rfl | ⟨before, last, rfl⟩ := List.eq_nil_or_concat' middle
          · exact ⟨[], isBack.symm⟩
          · rw [← List.append_assoc, ← List.append_assoc] at isFront
            obtain ⟨-, isLast⟩ := List.append_inj' isFront rfl
            rw [isBack, ← isLast] at oneLine
            exact absurd (List.mem_append_left _ (List.mem_append_right _ List.mem_cons_self)) oneLine
      obtain ⟨sameBody, changed, inserted, changedSource⟩ := inductionHypothesis isBody
      refine ⟨?_, _, .behind noHeader newline inserted, ?_⟩
      · rw [if_neg (by simp [noHeader]), sameBody, Document.source]
      · rw [Document.source, Document.source, changedSource]
        simp only [List.append_assoc]

/-- A document with a further line in the table of the first header that the scanner takes for a
path. -/
inductive InsertedUnder (path : List Text) (new : Line dialect) :
    Document dialect → Document dialect → Prop
  | header {line : Line dialect} {double : Bool} {key : Key dialect}
      {document changed : Document dialect} (isHeader : line.header? = some (double, key))
      (named : key.scanned = path) (newline : Newline) (inserted : Inserted new document changed) :
      InsertedUnder path new (.more line newline document) (.more line newline changed)
  | lastHeader {line : Line dialect} {double : Bool} {key : Key dialect}
      (isHeader : line.header? = some (double, key)) (named : key.scanned = path) :
      InsertedUnder path new (.last line) (.more line .lineFeed (.more new .lineFeed (.last .empty)))
  | behind {line : Line dialect} {document changed : Document dialect}
      (unlike : ∀ header ∈ line.header?, header.2.scanned ≠ path) (newline : Newline)
      (inserted : InsertedUnder path new document changed) :
      InsertedUnder path new (.more line newline document) (.more line newline changed)

/-- There is such a header. -/
theorem InsertedUnder.exists_header {new : Line dialect} {document changed : Document dialect}
    (inserted : InsertedUnder path new document changed) :
    ∃ header ∈ document.headers, header.2.scanned = path := by
  induction inserted with
  | header isHeader named newline inserted =>
    exact ⟨_, List.mem_append_left _ (Option.mem_toList.mpr isHeader), named⟩
  | lastHeader isHeader named => exact ⟨_, Option.mem_toList.mpr isHeader, named⟩
  | behind unlike newline inserted inductionHypothesis =>
    obtain ⟨header, member, named⟩ := inductionHypothesis
    exact ⟨header, List.mem_append_right _ member, named⟩

/-! ### The ends of the tables of a layout -/

/-- What a table ends with is the unit before its end. -/
theorem bodyEndsWithNewline_close {headerEnd stop : Nat} {unit : CodeUnit}
    (splits : content = front ++ unit :: back)
    (isEnd : (LayoutTable.close content path headerEnd stop).bodyEnd = front.length + 1) :
    (LayoutTable.close content path headerEnd stop).bodyEndsWithNewline = (unit == 0x0A) := by
  have isFlag : (LayoutTable.close content path headerEnd stop).bodyEndsWithNewline =
      ((LayoutTable.close content path headerEnd stop).bodyEnd > 0 &&
        content[(LayoutTable.close content path headerEnd stop).bodyEnd - 1]? == some 0x0A) := rfl
  rw [isFlag, isEnd, Nat.add_sub_cancel, splits,
    List.getElem?_append_right (Nat.le_refl _), Nat.sub_self, List.getElem?_cons_zero]
  simp

/-- A further line has a place in a document: at the end of a table, with a line feed before it if it
needs one. -/
def Fits (table : LayoutTable) (before : Nat) (new : Line dialect)
    (document changed : Document dialect) : Prop :=
  ∃ front back, document.source = front ++ back ∧ table.bodyEnd = before + front.length ∧
    changed.source =
      front ++ ((if table.bodyEndsWithNewline then [] else [0x0A]) ++ (new.source ++ 0x0A :: back))

theorem Fits.behind {table : LayoutTable} {before : Nat} {new line : Line dialect} {newline : Newline}
    {document changed : Document dialect}
    (fits : Fits table (before + line.source.length + newline.source.length) new document changed) :
    Fits table before new (.more line newline document) (.more line newline changed) := by
  obtain ⟨front, back, source, isEnd, changedSource⟩ := fits
  refine ⟨line.source ++ (newline.source ++ front), back, ?_, ?_, ?_⟩
  · simp only [Document.source, source, List.append_assoc]
  · rw [isEnd, List.length_append, List.length_append]
    omega
  · simp only [Document.source, changedSource, List.append_assoc]

/-- A line can be put at the end of the table that is open at the start of a document. -/
theorem Document.exists_inserted (document : Document dialect) (new : Line dialect)
    {before : Text} (whole : content = before ++ 0x0A :: document.source) (path : List Text) :
    let stop := before.length + 1
    ∃ changed, Inserted new document changed ∧
      Fits (.close content path stop (stop + document.body.length)) stop new document changed := by
  intro stop
  obtain ⟨rest, isSource⟩ := document.exists_source_eq
  have isSlice : content.slice stop (stop + document.body.length) = document.body := by
    have drops : content.drop stop = document.source := by
      rw [whole, List.drop_append, List.drop_eq_nil_of_le (Nat.le_succ _)]
      simp [stop]
    rw [Text.slice, drops, isSource, Nat.add_sub_cancel_left, List.take_left]
  have ends := contentEnd_lastContentEnd document.body stop stop
  have isEnd : (LayoutTable.close content path stop (stop + document.body.length)).bodyEnd =
      lastContentEnd stop stop (Text.splitAt 0x0A document.body) := by
    change lastContentEnd stop stop (Text.splitAt 0x0A (content.slice stop _)) = _
    rw [isSlice]
  generalize lastContentEnd stop stop (Text.splitAt 0x0A document.body) = last at ends isEnd
  cases ends with
  | none =>
    have flag := bodyEndsWithNewline_close whole isEnd
    refine ⟨_, .here document, [], document.source, rfl, isEnd, ?_⟩
    rw [flag]
    rfl
  | @behind front back splits blank =>
    obtain ⟨changed, rest, inserted, source, changedSource⟩ :=
      document.exists_inserted_of_blank new splits blank
    have isContent : content = (before ++ 0x0A :: front) ++ 0x0A :: rest := by
      rw [whole, source]
      simp
    have flag := bodyEndsWithNewline_close isContent (by
      rw [isEnd, List.length_append, List.length_cons]
      omega)
    refine ⟨changed, inserted, front ++ [0x0A], rest, by simp [source], ?_, ?_⟩
    · rw [isEnd, List.length_append]
      rfl
    · rw [changedSource, flag]
      simp
  | @whole front back splits oneLine inked =>
    obtain ⟨sameBody, changed, inserted, changedSource⟩ :=
      document.exists_inserted_of_inked new splits oneLine inked
    obtain rfl | ⟨middle, unit, rfl⟩ := List.eq_nil_or_concat' back
    · exact absurd (List.forall_mem_nil _) inked
    · have isContent : content = (before ++ 0x0A :: (front ++ middle)) ++ unit :: [] := by
        rw [whole, ← sameBody, splits]
        simp
      have flag := bodyEndsWithNewline_close isContent (by
        rw [isEnd, splits]
        simp only [List.length_append, List.length_cons, List.length_nil, stop]
        omega)
      have notFeed : unit ≠ 0x0A := fun isFeed =>
        oneLine (isFeed ▸ List.mem_append_right _ List.mem_cons_self)
      refine ⟨changed, inserted, document.source, [], (List.append_nil _).symm, ?_, ?_⟩
      · rw [isEnd, sameBody]
      · rw [changedSource, flag, beq_false_of_ne notFeed]
        rfl

/-- So it can behind a header at the end of a document. -/
theorem Line.exists_inserted_of_header {line : Line dialect} {double : Bool} {key : Key dialect}
    (isHeader : line.header? = some (double, key)) (new : Line dialect) {before : Text}
    (whole : content = before ++ line.source) (path : List Text) :
    Fits (.close content path (before.length + line.source.length) content.length) before.length new
      (.last line) (.more line .lineFeed (.more new .lineFeed (.last .empty))) := by
  have atEnd : before.length + line.source.length = content.length := by
    rw [whole, List.length_append]
  have isEnd : (LayoutTable.close content path content.length content.length).bodyEnd =
      content.length := by
    have isSlice : content.slice content.length content.length = [] := by
      rw [Text.slice, List.drop_length, List.take_nil]
    change lastContentEnd _ _ (Text.splitAt 0x0A (content.slice content.length content.length)) = _
    rw [isSlice]
    rfl
  obtain ⟨opening, closing, isItem⟩ := line.item_of_header? isHeader
  obtain none | ⟨front, unit, isSource⟩ := List.eq_nil_or_concat' line.source
  · obtain ⟨before, unit, isInked, -⟩ := (Item.header double opening key closing).endsInked
    have longer := line.length_source
    rw [none, isItem, itemSource, isInked, List.length_append, List.length_singleton,
      List.length_nil] at longer
    omega
  · have notFeed : unit ≠ 0x0A := by
      rintro rfl
      exact line.not_blank_behind_lineFeed isSource (List.forall_mem_nil _)
    have isContent : content = (before ++ front) ++ unit :: [] := by
      rw [whole, isSource, List.append_assoc]
    have flag := bodyEndsWithNewline_close isContent (by
      rw [isEnd, isContent]
      exact List.length_append)
    refine ⟨line.source, [], (List.append_nil _).symm, ?_, ?_⟩
    · rw [atEnd, isEnd]
    · rw [atEnd, flag, beq_false_of_ne notFeed]
      simp [Document.source, Line.empty, Blanks.nothing, Line.source, Newline.source, itemSource,
        commentSource]

theorem find?_closeAt {table : Option OpenTable} (unlike : ∀ opened ∈ table, opened.path ≠ path)
    (stop : Nat) (tables : List LayoutTable) :
    (OpenTable.closeAt content stop table ++ tables).find? (fun table => table.path = path) =
      tables.find? fun table => table.path = path := by
  cases table with
  | none => rfl
  | some opened => exact List.find?_cons_of_neg (by simpa [LayoutTable.close] using unlike opened rfl)

/-- What the scanner finds for a path in a document that begins at a position: nothing if it takes no
header for the path, or else a table at whose end a further line has a place. -/
def Document.Finds (document : Document dialect) (path : List Text) (new : Line dialect) (before : Nat)
    (found : Option LayoutTable) : Prop :=
  (found = none ∧ ∀ header ∈ document.headers, header.2.scanned ≠ path) ∨
    ∃ place changed, found = some place ∧ InsertedUnder path new document changed ∧
      Fits place before new document changed

/-- What is found behind a line that is no such header is found. -/
theorem Document.Finds.behind {line new : Line dialect} {newline : Newline}
    {others : Document dialect} {before : Nat} {found : Option LayoutTable}
    (unlike : ∀ header ∈ line.header?, header.2.scanned ≠ path)
    (finds : others.Finds path new (before + line.source.length + newline.source.length) found) :
    (more line newline others).Finds path new before found := by
  obtain ⟨none, noHeader⟩ | ⟨place, changed, isPlace, inserted, fits⟩ := finds
  · refine Or.inl ⟨none, List.forall_mem_append.mpr ⟨fun header member => ?_, noHeader⟩⟩
    exact unlike header (Option.mem_toList.mp member)
  · exact Or.inr ⟨place, _, isPlace, .behind unlike newline inserted, fits.behind⟩

theorem Line.finds_last (line new : Line dialect) {before : Text}
    (whole : content = before ++ line.source) (path : List Text) {table : Option OpenTable}
    (unlike : ∀ opened ∈ table, opened.path ≠ path) :
    (Document.last line).Finds path new before.length
      (((Document.last line).tables content table before.length).find? fun table =>
        table.path = path) := by
  rw [Document.tables]
  cases isHeader : line.header? with
  | none =>
    refine Or.inl ⟨?_, by
      rw [Document.headers, isHeader]
      exact List.forall_mem_nil _⟩
    rw [Line.closed_of_no_header isHeader, Line.opened_of_no_header isHeader, List.nil_append,
      ← List.append_nil (OpenTable.closeAt content content.length table), find?_closeAt unlike]
    rfl
  | some header =>
    obtain ⟨double, key⟩ := header
    rw [Line.closed_of_header isHeader, Line.opened_of_header isHeader, find?_closeAt unlike,
      OpenTable.closeAt]
    by_cases named : key.scanned = path
    · refine Or.inr ⟨_, _, ?_, .lastHeader isHeader named,
        Line.exists_inserted_of_header isHeader new whole path⟩
      rw [named]
      exact List.find?_cons_of_pos (by simp [LayoutTable.close])
    · refine Or.inl ⟨?_, ?_⟩
      · rw [List.find?_cons_of_neg (by simpa [LayoutTable.close])]
        rfl
      · rw [Document.headers, isHeader]
        exact List.forall_mem_singleton.mpr named

/-- A header that the scanner takes for the path is what it finds. -/
theorem Line.finds_of_header {line : Line dialect} {double : Bool} {key : Key dialect}
    (isHeader : line.header? = some (double, key)) (new : Line dialect) (newline : Newline)
    (others : Document dialect) {before : Text}
    (whole : content = before ++ (line.source ++ (newline.source ++ others.source))) :
    let stop := before.length + line.source.length + newline.source.length
    (Document.more line newline others).Finds key.scanned new before.length
      ((others.tables content (some ⟨key.scanned, stop⟩) stop).find? fun table =>
        table.path = key.scanned) := by
  intro stop
  obtain ⟨ending, isEnding, -⟩ := newline.exists_front
  have isContent : content = (before ++ (line.source ++ ending)) ++ 0x0A :: others.source := by
    rw [whole, isEnding]
    simp
  have length : (before ++ (line.source ++ ending)).length + 1 = stop := by
    simp only [stop, isEnding, List.length_append, List.length_singleton]
    omega
  obtain ⟨changed, inserted, fits⟩ := others.exists_inserted new isContent key.scanned
  rw [length] at fits
  refine Or.inr ⟨_, _, ?_, .header isHeader rfl newline inserted, fits.behind⟩
  have isWhole : content.length = stop + others.source.length := by
    rw [isContent, ← length, List.length_append, List.length_cons]
    omega
  obtain ⟨rest, isFirst⟩ :=
    List.head?_eq_some_iff.mp (others.head?_tables ⟨key.scanned, stop⟩ stop isWhole)
  rw [isFirst]
  exact List.find?_cons_of_pos (by simp [LayoutTable.close])

/-- The scanner finds the first header that it takes for a path, if there is one. -/
theorem Document.finds_tables (document : Document dialect) (path : List Text) (new : Line dialect)
    {before : Text} (whole : content = before ++ document.source) (table : Option OpenTable)
    (unlike : ∀ opened ∈ table, opened.path ≠ path) :
    document.Finds path new before.length
      ((document.tables content table before.length).find? fun table => table.path = path) := by
  induction document generalizing before table with
  | last line => exact line.finds_last new whole path unlike
  | more line newline others inductionHypothesis =>
    have wholeOthers : content = (before ++ (line.source ++ newline.source)) ++ others.source := by
      rw [whole, Document.source]
      simp only [List.append_assoc]
    have goesOn (opened : Option OpenTable) (unlike : ∀ table ∈ opened, table.path ≠ path) :=
      inductionHypothesis wholeOthers opened unlike
    simp only [List.length_append, ← Nat.add_assoc] at goesOn
    rw [Document.tables]
    cases isHeader : line.header? with
    | none =>
      rw [Line.closed_of_no_header isHeader, Line.opened_of_no_header isHeader, List.nil_append]
      refine (goesOn table unlike).behind fun header isSome => ?_
      rw [isHeader] at isSome
      cases isSome
    | some header =>
      obtain ⟨double, key⟩ := header
      rw [Line.closed_of_header isHeader, Line.opened_of_header isHeader, find?_closeAt unlike]
      by_cases named : key.scanned = path
      · subst named
        exact Line.finds_of_header isHeader new newline others whole
      · refine (goesOn _ (by rintro _ ⟨⟩; exact named)).behind ?_
        rw [isHeader]
        rintro _ ⟨⟩
        exact named

end Written

/-- The table for a path in the layout of a document. -/
theorem table?_ofText (document : Written.Document dialect) (path : List Text)
    (new : Written.Line dialect) :
    document.Finds path new 0 ((Layout.ofText document.source).table? path) := by
  have found := document.finds_tables path new (List.nil_append document.source).symm none nofun
  rwa [List.length_nil, ← tables_ofText] at found

end SourceLint.Toml
