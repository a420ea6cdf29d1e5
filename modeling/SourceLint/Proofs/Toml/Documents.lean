/-
This file proves that the layout of a written document has the places that its keys give, and one
table for each header. The scanner goes on by lines: it takes the header or the pair of a line, if
there is one, and leaves the rest of the line.
-/
import SourceLint.Proofs.Toml.Trees

namespace SourceLint.Toml

open Cursor (isLayoutUnit triviaLength)

variable {dialect : Dialect} {rest text : Text} {position fuel : Nat} {content : Text}
  {table : Option OpenTable}

/-! ### The ends of lines -/

/-- The units of a line ending, if there is one. -/
def endingSource : Option Newline → Text
  | none => []
  | some newline => newline.source

/-- A document has nothing behind a line without an ending. -/
def IsTail (ending : Option Newline) (rest : Text) : Prop := ending = none → rest = []

theorem isTail_none : IsTail none [] := fun _ => rfl

theorem isTail_some (newline : Newline) (rest : Text) : IsTail (some newline) rest :=
  fun isNone => absurd isNone (Option.some_ne_none newline)

/-- The layout from a cursor depends on what comes behind the trivia there. -/
theorem layoutFrom_congr {cursor other : Cursor} (same : cursor.skipTrivia = other.skipTrivia) :
    layoutFrom content fuel table cursor = layoutFrom content fuel table other := by
  cases fuel with
  | zero => rfl
  | succ fuel => rw [layoutFrom, layoutFrom, same]

/-- The rest of a line is left, up to its line feed or to the end of the text. -/
theorem skipLine_tail (noFeed : 0x0A ∉ text) (ending : Option Newline) (tail : IsTail ending rest)
    (position : Nat) :
    let next := (Cursor.mk position (text ++ (endingSource ending ++ rest))).skipLine
    (if next.rest.isEmpty then next.position else next.position + 1) =
        position + text.length + (endingSource ending).length ∧
      next.skipTrivia =
        (Cursor.mk (position + text.length + (endingSource ending).length) rest).skipTrivia := by
  have passes : ∀ unit ∈ text, (unit != 0x0A) = true := fun unit member =>
    bne_iff_ne.mpr fun isFeed => noFeed (isFeed ▸ member)
  have atFeed (front : Text) (others : Text) (early : ∀ unit ∈ front, (unit != 0x0A) = true) :
      (Cursor.mk position (front ++ 0x0A :: others)).skipLine =
        ⟨position + front.length, 0x0A :: others⟩ :=
    (Cursor.skipWhile_append early).trans (Cursor.skipWhile_eq_self (by rintro _ ⟨⟩; rfl))
  have behindFeed (start : Nat) : (Cursor.mk start (0x0A :: rest)).skipTrivia =
      (Cursor.mk (start + 1) rest).skipTrivia :=
    have passes : triviaLength false ([0x0A] ++ rest) = 1 + triviaLength false rest :=
      Cursor.triviaLength_append (by decide) rest
    Cursor.skipTrivia_append passes
  cases ending with
  | none =>
    obtain rfl := tail rfl
    have atEnd : (Cursor.mk position (text ++ [])).skipLine = ⟨position + text.length, []⟩ :=
      (Cursor.skipWhile_append passes).trans (Cursor.skipWhile_eq_self nofun)
    dsimp only [endingSource]
    rw [List.nil_append, atEnd]
    exact ⟨rfl, rfl⟩
  | some newline =>
    cases newline with
    | lineFeed =>
      dsimp only [endingSource, Newline.source]
      rw [List.singleton_append, atFeed text rest passes]
      exact ⟨rfl, behindFeed _⟩
    | pair =>
      have feed := atFeed (text ++ [0x0D]) rest
        (List.forall_mem_append.mpr ⟨passes, by decide⟩)
      rw [List.append_assoc, List.length_append] at feed
      dsimp only [endingSource, Newline.source]
      rw [show ([0x0D, 0x0A] ++ rest : Text) = [0x0D] ++ 0x0A :: rest from rfl, feed]
      exact ⟨rfl, behindFeed _⟩

/-- Behind what a line has, blanks and a comment are passed over. -/
theorem skipTrivia_lineRest (blanks : Blanks) (comment : Option (Comment dialect))
    (ending : Option Newline) (tail : IsTail ending rest) (position : Nat) :
    (Cursor.mk position (blanks.source ++ (commentSource comment ++
      (endingSource ending ++ rest)))).skipTrivia =
      (Cursor.mk (position + blanks.source.length + (commentSource comment).length +
        (endingSource ending).length) rest).skipTrivia := by
  have areLayout : ∀ unit ∈ blanks.source, isLayoutUnit unit = true := fun unit member =>
    isLayoutUnit_of_isSpaceOrTab (blanks.areBlank unit member)
  rw [Cursor.skipTrivia_append (Cursor.triviaLength_append areLayout _)]
  cases ending with
  | some newline =>
    have passes := triviaLength_commentSource comment newline rest
    rw [← List.append_assoc] at passes
    dsimp only [endingSource]
    rw [← List.append_assoc, Cursor.skipTrivia_append, List.length_append, Nat.add_assoc, Nat.add_assoc,
      Nat.add_assoc]
    rw [passes, List.length_append, Nat.add_assoc]
  | none =>
    obtain rfl := tail rfl
    have passes : triviaLength false (commentSource comment ++ []) =
        (commentSource comment).length + triviaLength false [] := by
      cases comment with
      | none => rfl
      | some comment =>
        change 1 + triviaLength true (comment.text ++ []) = _
        rw [Cursor.triviaLength_comment comment.lineFeed_not_mem [] (Or.inl rfl)]
        simp only [commentSource, Comment.source, List.length_cons]
        omega
    exact Cursor.skipTrivia_append passes

/-! ### Lines -/

namespace Written

/-- What comes behind the item of a line. -/
def Line.behind (line : Line dialect) : Text := line.after.source ++ commentSource line.comment

theorem Line.lineFeed_not_mem_behind (line : Line dialect) : 0x0A ∉ line.behind := by
  exact mt List.mem_append.mp
    (not_or.mpr ⟨line.after.lineFeed_not_mem, lineFeed_not_mem_commentSource _⟩)

/-- The length of a line up to its end. -/
theorem Line.length_source (line : Line dialect) :
    line.source.length =
      line.before.source.length + (itemSource line.item).length + line.behind.length := by
  simp only [Line.source, Line.behind, List.length_append]
  omega

/-- The scanner passes over an empty line. -/
theorem Line.layoutFrom_none (line : Line dialect) (empty : line.item = none)
    (ending : Option Newline) (tail : IsTail ending rest) (position : Nat) :
    layoutFrom content fuel table ⟨position, line.source ++ (endingSource ending ++ rest)⟩ =
      layoutFrom content fuel table
        ⟨position + line.source.length + (endingSource ending).length, rest⟩ := by
  refine layoutFrom_congr ?_
  have blanks : ∀ unit ∈ line.before.source, isLayoutUnit unit = true := fun unit member =>
    isLayoutUnit_of_isSpaceOrTab (line.before.areBlank unit member)
  have passes := skipTrivia_lineRest line.after line.comment ending tail
    (position + line.before.source.length)
  rw [Line.source, empty, itemSource, List.nil_append, List.append_assoc, List.append_assoc,
    Cursor.skipTrivia_append (Cursor.triviaLength_append blanks _), passes]
  simp only [List.length_append, Nat.add_assoc]

/-- Blanks before an item are passed over. -/
theorem skipTrivia_item (blanks : Blanks) (position : Nat) (text : Text)
    (stops : ∀ unit ∈ text.head?, EndsTrivia unit) :
    (Cursor.mk position (blanks.source ++ text)).skipTrivia =
      ⟨position + blanks.source.length, text⟩ :=
  (Cursor.skipTrivia_append (Cursor.triviaLength_append (fun unit member =>
    isLayoutUnit_of_isSpaceOrTab (blanks.areBlank unit member)) text)).trans
    (Cursor.skipTrivia_eq_self stops)

/-- A header is told by its brackets: behind a single one there is no other. -/
theorem startsWith_brackets (double : Bool) (blanks : Blanks) (key : Key dialect) (rest : Text) :
    Text.startsWith (brackets double '[' ++ (blanks.source ++ (key.source ++ rest))) "[[" =
      double := by
  cases double with
  | true => rfl
  | false =>
    have second : (blanks.source ++ (key.source ++ rest)).head? ≠ some '[' := by
      obtain ⟨source, areBlank⟩ := blanks
      cases source with
      | nil =>
        obtain ⟨unit, others, same, begins⟩ := key.exists_head
        rw [List.nil_append, same]
        exact fun isBracket => begins.ne (by decide) (by decide) (Option.some.inj isBracket)
      | cons unit source =>
        rintro ⟨⟩
        exact absurd (areBlank _ List.mem_cons_self) (by decide)
    rw [Text.startsWith, ← Bool.not_eq_true, List.isPrefixOf_iff_prefix]
    rintro ⟨others, same⟩
    exact second (congrArg List.head? (List.cons.inj same).2).symm

/-- The scanner takes a header with its key. -/
theorem Line.layoutFrom_header {line : Line dialect} {double : Bool} {before after : Blanks}
    {key : Key dialect} (isHeader : line.item = some (.header double before key after))
    (ending : Option Newline) (tail : IsTail ending rest) (position : Nat) :
    let stop := position + line.source.length + (endingSource ending).length
    let layout := layoutFrom content fuel (some ⟨key.scanned, stop⟩) ⟨stop, rest⟩
    layoutFrom content (fuel + 1) table ⟨position, line.source ++ (endingSource ending ++ rest)⟩ =
      ⟨layout.entries,
        OpenTable.closeAt content (position + line.before.source.length) table ++ layout.tables⟩ := by
  intro stop layout
  set left := line.behind ++ (endingSource ending ++ rest) with isLeft
  set inner := before.source ++ (key.source ++ (after.source ++ (brackets double ']' ++ left)))
    with isInner
  have whole : line.source ++ (endingSource ending ++ rest) =
      line.before.source ++ (brackets double '[' ++ inner) := by
    simp only [Line.source, isHeader, itemSource, Item.source, Line.behind, isLeft, isInner,
      List.append_assoc]
  obtain ⟨others, splits⟩ : ∃ others, brackets double '[' ++ inner = ('[' : CodeUnit) :: others := by
    cases double <;> exact ⟨_, rfl⟩
  have atBracket := skipTrivia_item line.before position (brackets double '[' ++ inner) (by
    rw [splits]
    rintro _ ⟨⟩
    exact ⟨by decide, by decide⟩)
  have count : (if double = true then 2 else 1) = (brackets double ('[' : CodeUnit)).length := by
    cases double <;> rfl
  have ends : ∀ unit ∈ (brackets double ']' ++ left).head?, EndsKey unit := by
    cases double <;> (rintro _ ⟨⟩; exact ⟨⟨by decide, by decide⟩, by decide, by decide⟩)
  have noFeed : 0x0A ∉ brackets double ']' ++ line.behind :=
    mt List.mem_append.mp (not_or.mpr ⟨by cases double <;> decide, line.lineFeed_not_mem_behind⟩)
  obtain ⟨headerEnd, further⟩ := skipLine_tail noFeed ending tail
    (position + line.before.source.length + (brackets double ('[' : CodeUnit)).length +
      before.source.length + key.source.length + after.source.length)
  rw [List.append_assoc, ← isLeft] at headerEnd further
  have length : (brackets double ('[' : CodeUnit)).length + before.source.length +
      key.source.length + after.source.length +
        (brackets double (']' : CodeUnit) ++ line.behind).length =
        (itemSource line.item).length + line.behind.length := by
    simp only [isHeader, itemSource, Item.source, List.length_append]
    omega
  have atStop : position + line.before.source.length + (brackets double ('[' : CodeUnit)).length +
      before.source.length + key.source.length + after.source.length +
        (brackets double (']' : CodeUnit) ++ line.behind).length +
          (endingSource ending).length = stop := by
    simp only [stop, line.length_source]
    omega
  rw [atStop] at headerEnd further
  rw [whole, layoutFrom]
  dsimp only
  rw [atBracket, if_neg (by rw [splits]; exact Bool.false_ne_true), Cursor.isAt_cons _ splits,
    beq_self_eq_true,
    if_pos rfl, startsWith_brackets, count, Cursor.advance_append, skipSpace_key,
    (keyRun_key key after _ _ ends).readKey_eq]
  dsimp only
  rw [headerEnd, layoutFrom_congr further]

/-- The scanner takes a pair, with the places in it. -/
theorem Line.layoutFrom_pair (content : Text) (fuel : Nat) (table : Option OpenTable)
    {line : Line dialect} {own : Pair dialect}
    (isPair : line.item = some (.pair own)) (ending : Option Newline) (tail : IsTail ending rest)
    (position : Nat) :
    let stop := position + line.source.length + (endingSource ending).length
    let layout := layoutFrom content fuel table ⟨stop, rest⟩
    let path := (table.map OpenTable.path).getD []
    ∃ entry : LayoutEntry, entry.places =
        (own.locations Key.scanned (position + line.before.source.length)).map Location.place ∧
      layoutFrom content (fuel + 1) table ⟨position, line.source ++ (endingSource ending ++ rest)⟩ =
        ⟨.mk (path ++ entry.path) entry.valueSpan entry.inline :: layout.entries,
          layout.tables⟩ := by
  intro stop layout path
  set left := line.behind ++ (endingSource ending ++ rest) with isLeft
  have whole : line.source ++ (endingSource ending ++ rest) =
      line.before.source ++ (own.source ++ left) := by
    simp only [Line.source, isPair, itemSource, Item.source, Line.behind, isLeft, List.append_assoc]
  obtain ⟨unit, others, same, begins⟩ := own.exists_head
  have atPair := skipTrivia_item line.before position (own.source ++ left) (by
    rw [same]
    rintro _ ⟨⟩
    exact begins.endsTrivia)
  have closes : Closes left := by
    rw [isLeft, Line.behind, List.append_assoc]
    refine closes_blanks _ (closes_commentSource _ ?_)
    cases ending with
    | some newline => exact closes_newline newline rest
    | none => exact tail rfl ▸ closes_nil
  obtain ⟨entry, next, run, near, places, -⟩ :=
    own.run (position + line.before.source.length) _ closes
  have reads : readEntry (4 * (own.source ++ left).length + 8)
      ⟨position + line.before.source.length, own.source ++ left⟩ = (entry, next) := by
    obtain ⟨text, along⟩ :=
      (Cursor.mk (position + line.before.source.length) (own.source ++ left)).exists_along
    have deep : Task.depth .entry ⟨position + line.before.source.length, own.source ++ left⟩ ≤
        4 * (own.source ++ left).length + 8 := Nat.add_le_add_left (by decide) _
    exact (runs text _ .entry _ along trivial deep).unique run
  obtain ⟨-, further⟩ := skipLine_tail line.lineFeed_not_mem_behind ending tail
    (position + line.before.source.length + own.source.length)
  have atStop : position + line.before.source.length + own.source.length + line.behind.length +
      (endingSource ending).length = stop := by
    simp only [stop, line.length_source, isPair, itemSource, Item.source]
    omega
  rw [← isLeft, atStop, ← near.skipLine] at further
  refine ⟨entry, places, ?_⟩
  rw [whole, layoutFrom]
  dsimp only
  rw [atPair, if_neg (by rw [same]; simp), Cursor.isAt_cons _ (by rw [same]; rfl),
    beq_false_of_ne (begins.ne (by decide) (by decide)), if_neg Bool.false_ne_true, reads]
  dsimp only
  rw [layoutFrom_congr further]

/-! ### Documents -/

/-- The table that is open behind a line that ends at a position. -/
def Line.opened (line : Line dialect) (table : Option OpenTable) (stop : Nat) : Option OpenTable :=
  match line.item with
  | some (.header _ _ key _) => some ⟨key.scanned, stop⟩
  | _ => table

/-- The table that a line closes. -/
def Line.closed (line : Line dialect) (content : Text) (table : Option OpenTable) (position : Nat) :
    List LayoutTable :=
  match line.item with
  | some (.header _ _ _ _) =>
    OpenTable.closeAt content (position + line.before.source.length) table
  | _ => []

/-- The tables of a document: each header closes the last one. -/
def Document.tables (content : Text) : Document dialect → Option OpenTable → Nat → List LayoutTable
  | last line, table, position =>
    line.closed content table position ++
      OpenTable.closeAt content content.length (line.opened table (position + line.source.length))
  | more line newline others, table, position =>
    let stop := position + line.source.length + newline.source.length
    line.closed content table position ++ others.tables content (line.opened table stop) stop

/-- A line of a document in the layout: it gives its places and closes its table, and the layout goes
on behind it. -/
theorem Line.exists_layoutFrom_eq (line : Line dialect) (content : Text) (table : Option OpenTable)
    (ending : Option Newline) (rest : Text) (tail : IsTail ending rest) (position : Nat)
    (enough : line.source.length + rest.length < fuel) :
    let stop := position + line.source.length + (endingSource ending).length
    let path := (table.map OpenTable.path).getD []
    ∃ left entries, rest.length < left ∧
      allPlaces entries = (line.locations Key.scanned path position).map Location.place ∧
      (layoutFrom content fuel table
          ⟨position, line.source ++ (endingSource ending ++ rest)⟩).entries =
        entries ++ (layoutFrom content left (line.opened table stop) ⟨stop, rest⟩).entries ∧
      (layoutFrom content fuel table
          ⟨position, line.source ++ (endingSource ending ++ rest)⟩).tables =
        line.closed content table position ++
          (layoutFrom content left (line.opened table stop) ⟨stop, rest⟩).tables := by
  intro stop path
  cases isItem : line.item with
  | none =>
    refine ⟨fuel, [], by omega, ?_, ?_, ?_⟩
    · rw [Line.locations, isItem, allPlaces]
      rfl
    · rw [line.layoutFrom_none isItem ending tail, Line.opened, isItem]
      rfl
    · rw [line.layoutFrom_none isItem ending tail, Line.opened, Line.closed, isItem]
      rfl
  | some item =>
    obtain ⟨fuel, rfl⟩ := Nat.exists_eq_succ_of_ne_zero (Nat.ne_zero_of_lt enough)
    have notEmpty : 0 < line.source.length := by
      rw [line.length_source, isItem, itemSource]
      cases item with
      | header double =>
        have bracket : 0 < (brackets double ('[' : CodeUnit)).length := by cases double <;> decide
        simp only [Item.source, List.length_append]
        omega
      | pair own =>
        have longer := own.length_source_pos
        simp only [Item.source]
        omega
    cases item with
    | header double before key after =>
      refine ⟨fuel, [], by omega, ?_, ?_, ?_⟩
      · rw [Line.locations, isItem, allPlaces]
        rfl
      · rw [Line.layoutFrom_header isItem ending tail, Line.opened, isItem]
        rfl
      · rw [Line.layoutFrom_header isItem ending tail, Line.opened, Line.closed, isItem]
    | pair own =>
      obtain ⟨entry, places, same⟩ :=
        Line.layoutFrom_pair content fuel table isItem ending tail position
      refine ⟨fuel, [.mk (path ++ entry.path) entry.valueSpan entry.inline], by omega, ?_, ?_, ?_⟩
      · rw [Line.locations, isItem, allPlaces, allPlaces, List.append_nil,
          LayoutEntry.places_under, places, List.map_map, List.map_map]
        rfl
      · rw [same, Line.opened, isItem]
        rfl
      · rw [same, Line.opened, Line.closed, isItem]
        rfl

/-- The path of the table that is open behind a line. -/
theorem Line.path_opened (line : Line dialect) (table : Option OpenTable) (stop : Nat) :
    ((line.opened table stop).map OpenTable.path).getD [] =
      line.table Key.scanned ((table.map OpenTable.path).getD []) := by
  obtain ⟨before, item, after, comment⟩ := line
  match item with
  | none => rfl
  | some (.header _ _ _ _) => rfl
  | some (.pair _) => rfl

theorem layoutFrom_nil (content : Text) (table : Option OpenTable) (left : Nat) (enough : 0 < left)
    (position : Nat) :
    layoutFrom content left table ⟨position, []⟩ =
      ⟨[], OpenTable.closeAt content content.length table⟩ := by
  obtain ⟨left, rfl⟩ := Nat.exists_eq_succ_of_ne_zero (Nat.ne_zero_of_lt enough)
  rfl

/-- The layout of a document has the places that its keys give, and the tables of its headers. -/
theorem Document.layoutFrom_eq (document : Document dialect) (content : Text)
    (table : Option OpenTable) (position : Nat) (enough : document.source.length < fuel) :
    let layout := layoutFrom content fuel table ⟨position, document.source⟩
    allPlaces layout.entries =
        (document.locations Key.scanned ((table.map OpenTable.path).getD []) position).map
          Location.place ∧
      layout.tables = document.tables content table position := by
  dsimp only
  induction document generalizing table position fuel with
  | last line =>
    obtain ⟨left, entries, further, places, sameEntries, sameTables⟩ :=
      line.exists_layoutFrom_eq content table none [] isTail_none position
        (by rwa [List.length_nil])
    have atEnd := layoutFrom_nil content (line.opened table (position + line.source.length)) left
      (by omega) (position + line.source.length)
    simp only [endingSource, List.length_nil, Nat.add_zero, List.append_nil] at sameEntries sameTables
    rw [atEnd] at sameEntries sameTables
    rw [Document.source, sameEntries, sameTables, Document.locations, Document.tables, List.append_nil]
    exact ⟨places, rfl⟩
  | more line newline others inductionHypothesis =>
    simp only [Document.source, List.length_append] at enough
    obtain ⟨left, entries, further, places, sameEntries, sameTables⟩ :=
      line.exists_layoutFrom_eq content table (some newline) others.source
        (isTail_some newline _) position
        (Nat.lt_of_le_of_lt (Nat.add_le_add_left (Nat.le_add_left _ _) _) enough)
    obtain ⟨placesOthers, tablesOthers⟩ := inductionHypothesis
      (line.opened table (position + line.source.length + newline.source.length))
      (position + line.source.length + newline.source.length) further
    simp only [endingSource] at sameEntries sameTables
    rw [Document.source, sameEntries, sameTables, Document.locations, Document.tables,
      allPlaces_append, places, placesOthers, tablesOthers, List.map_append, Line.path_opened]
    exact ⟨rfl, rfl⟩

end Written

/-- The places in the layout of a document are those that its keys give. -/
theorem allPlaces_ofText (document : Written.Document dialect) :
    allPlaces (Layout.ofText document.source).entries =
      (document.locations Written.Key.scanned [] 0).map Written.Location.place :=
  (document.layoutFrom_eq document.source none 0 (Nat.lt_succ_self _)).1

/-- The tables in the layout of a document are those of its headers. -/
theorem tables_ofText (document : Written.Document dialect) :
    (Layout.ofText document.source).tables = document.tables document.source none 0 :=
  (document.layoutFrom_eq document.source none 0 (Nat.lt_succ_self _)).2

/-- The scanner finds the first value that a path is given. -/
theorem valueLocation?_ofText (document : Written.Document dialect) (path : List Text) :
    (Layout.ofText document.source).valueLocation? path =
      ((document.locations Written.Key.scanned [] 0).map Written.Location.place).lookup path := by
  rw [Layout.valueLocation?, findInEntries?_eq_lookup, allPlaces_ofText]

end SourceLint.Toml
