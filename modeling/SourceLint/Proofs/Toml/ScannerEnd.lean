/-
This file proves that the scanner as a whole comes to an end on every text, and what it then has.
`Scans` is its loop over the headers and entries of a text, with every turn further on, and with the
end of each table found from the back of what belongs to the table. The places that it records are
in order.
-/
import SourceLint.Proofs.Toml.ContentEnd
import SourceLint.Proofs.Toml.ScannerRun

namespace SourceLint.Toml

/-! ### The whole text -/

/-- Where the path of a header begins, behind its one or two brackets. -/
def Cursor.headerPath (cursor : Cursor) : Cursor :=
  (cursor.advance (if Text.startsWith cursor.rest "[[" then 2 else 1)).skipSpace

/-- The table that was open is closed at some position: its body ends where the search from there
ends, no earlier than its header. -/
inductive TableCloses (content : Text) (stop : Nat) : Option OpenTable → List LayoutTable → Prop
  | none : TableCloses content stop none []
  | some {path : List Text} {headerEnd bodyEnd : Nat}
      (search : Retreats content headerEnd stop bodyEnd) (behind : headerEnd ≤ bodyEnd) :
      TableCloses content stop (some ⟨path, headerEnd⟩)
        [⟨path, bodyEnd, bodyEnd > 0 && content[bodyEnd - 1]? == some 0x0A⟩]

/-- The loop over the headers and entries of a text, in the table of the last header. -/
inductive Scans (content : Text) : Option OpenTable → Cursor → Layout → Prop
  | done {table : Option OpenTable} {cursor : Cursor} {tables : List LayoutTable}
      (here : cursor.skipTrivia.rest = [])
      (closes : TableCloses content content.length table tables) :
      Scans content table cursor ⟨[], tables⟩
  | header {table : Option OpenTable} {cursor afterKey : Cursor} {path : List Text}
      {tables : List LayoutTable} {layout : Layout} (bracket : cursor.skipTrivia.isAt '[' = true)
      (key : Cursor.KeyRun cursor.skipTrivia.headerPath (path, afterKey))
      (closes : TableCloses content cursor.skipTrivia.position table tables)
      (forward : cursor.position < afterKey.skipLine.position)
      (others : Scans content (some ⟨path, if afterKey.skipLine.rest.isEmpty
        then afterKey.skipLine.position else afterKey.skipLine.position + 1⟩)
        afterKey.skipLine layout) :
      Scans content table cursor ⟨layout.entries, tables ++ layout.tables⟩
  | entry {table : Option OpenTable} {cursor next : Cursor} {entry : LayoutEntry} {layout : Layout}
      (goesOn : cursor.skipTrivia.rest ≠ []) (noBracket : cursor.skipTrivia.isAt '[' = false)
      (reads : Run .entry cursor.skipTrivia (entry, next))
      (forward : cursor.position < next.skipLine.position)
      (others : Scans content table next.skipLine layout) :
      Scans content table cursor
        ⟨.mk ((table.map OpenTable.path).getD [] ++ entry.path) entry.valueSpan entry.inline ::
          layout.entries, layout.tables⟩

theorem tableCloses_closeAt {content : Text} {stop : Nat} (inside : stop ≤ content.length)
    (table : Option OpenTable) :
    TableCloses content stop table (OpenTable.closeAt content stop table) := by
  cases table with
  | none => exact .none
  | some table =>
    have search : Retreats content table.headerEnd stop _ := retreats_lastContentEnd content inside
    exact .some search search.start_le

namespace Cursor

variable {cursor next : Cursor} {content : Text}

theorem Along.headerPath (along : cursor.Along content) : cursor.headerPath.Along content :=
  (along.advance _).skipSpace

/-- The path of a header ends behind the brackets before it. -/
theorem lt_readKey_headerPath (cursor : Cursor) :
    cursor.position < cursor.headerPath.readKey.2.position :=
  calc
    cursor.position <
        (cursor.advance (if Text.startsWith cursor.rest "[[" then 2 else 1)).position := by
      split <;> exact Nat.lt_add_of_pos_right (by decide)
    _ ≤ cursor.headerPath.position := le_skipSpace _
    _ ≤ cursor.headerPath.readKey.2.position := le_readKey _

/-- What is read at a cursor may take nothing; then the rest of the line takes the cursor on, as long
as there is one. -/
theorem lt_skipLine (along : cursor.Along content) (after : next.Along content)
    (onward : cursor.position ≤ next.position) (notEmpty : cursor.rest ≠ [])
    (unlike : cursor.rest.head? ≠ some 0x0A) : cursor.position < next.skipLine.position := by
  rcases Nat.eq_or_lt_of_le onward with same | further
  · have rest : next.rest = cursor.rest := by rw [after, along, same]
    obtain ⟨unit, others, here⟩ := List.exists_cons_of_ne_nil notEmpty
    rw [here] at unlike
    rw [same, skipLine, skipWhile, rest, here,
      List.takeWhile_cons_of_pos (p := (· != 0x0A)) (by simpa using unlike)]
    exact Nat.lt_add_of_pos_right (Nat.succ_pos _)
  · exact Nat.lt_of_lt_of_le further next.le_skipLine

end Cursor

/-- The scanner runs to its end from every cursor along the text. -/
theorem scans_layoutFrom {content : Text} (steps : Nat) (table : Option OpenTable)
    {cursor : Cursor} (along : cursor.Along content) (enough : cursor.rest.length < steps) :
    Scans content table cursor (layoutFrom content steps table cursor) := by
  induction steps generalizing table cursor with
  | zero => exact absurd enough (Nat.not_lt_zero _)
  | succ steps inductionHypothesis =>
    have here := along.skipTrivia
    have begins := cursor.le_skipTrivia
    have fewer := along.length_le here begins
    rw [layoutFrom]
    dsimp only
    split
    case isTrue empty =>
      exact .done (List.isEmpty_iff.mp empty) (tableCloses_closeAt (Nat.le_refl _) table)
    case isFalse goesOn =>
      have notEmpty : cursor.skipTrivia.rest ≠ [] := fun empty =>
        goesOn (List.isEmpty_iff.mpr empty)
      have inside : cursor.skipTrivia.position ≤ content.length := by
        have positive := List.length_pos_of_ne_nil notEmpty
        rw [here, List.length_drop] at positive
        omega
      split
      case isTrue bracket =>
        rw [← Cursor.headerPath]
        have key := Cursor.keyRun_readKey here.headerPath
        have after := here.headerPath.readKey.skipLine
        have onward := cursor.skipTrivia.lt_readKey_headerPath
        generalize cursor.skipTrivia.headerPath.readKey = read at key after onward ⊢
        obtain ⟨path, afterKey⟩ := read
        dsimp only at after onward
        have forward := Nat.lt_of_lt_of_le onward afterKey.le_skipLine
        have shorter := here.length_lt after notEmpty forward
        exact .header bracket key (tableCloses_closeAt inside table)
          (Nat.lt_of_le_of_lt begins forward) (inductionHypothesis _ after (by omega))
      case isFalse noBracket =>
        have enough : Task.depth .entry cursor.skipTrivia ≤
            4 * cursor.skipTrivia.rest.length + 8 := Nat.add_le_add_left (by decide) _
        generalize 4 * cursor.skipTrivia.rest.length + 8 = depth at enough ⊢
        have reads : Run .entry cursor.skipTrivia (readEntry depth cursor.skipTrivia) :=
          runs content depth .entry _ here trivial enough
        have after := (readAlong content depth).entry here
        obtain ⟨-, onward⟩ := (readForward depth).entry cursor.skipTrivia
        generalize readEntry depth cursor.skipTrivia = read at reads after onward ⊢
        obtain ⟨entry, next⟩ := read
        dsimp only at after onward
        have unlike : cursor.skipTrivia.rest.head? ≠ some 0x0A := by
          exact Cursor.head?_drop_triviaLength _ _
        have forward := Cursor.lt_skipLine here after onward notEmpty unlike
        have shorter := here.length_lt after.skipLine notEmpty forward
        exact .entry notEmpty (Bool.eq_false_iff.mpr noBracket) reads
          (Nat.lt_of_le_of_lt begins forward)
          (inductionHypothesis table after.skipLine (by omega))

theorem TableCloses.unique {content : Text} {stop : Nat} {table : Option OpenTable}
    {tables others : List LayoutTable} (closes : TableCloses content stop table tables)
    (again : TableCloses content stop table others) : tables = others := by
  cases closes with
  | none =>
    cases again
    rfl
  | some search =>
    cases again with
    | some other => rw [search.unique other]

/-- The scanner gives one layout. -/
theorem Scans.unique {content : Text} {table : Option OpenTable} {cursor : Cursor}
    {layout other : Layout} (scans : Scans content table cursor layout)
    (again : Scans content table cursor other) : layout = other := by
  induction scans generalizing other with
  | done here closes =>
    cases again with
    | done _ closesAgain => rw [closes.unique closesAgain]
    | header bracket => exact absurd here (Cursor.ne_nil_of_isAt bracket)
    | entry goesOn => exact absurd here goesOn
  | header bracket key closes _ _ inductionHypothesis =>
    cases again with
    | done here => exact absurd here (Cursor.ne_nil_of_isAt bracket)
    | header _ keyAgain closesAgain _ others =>
      cases key.unique keyAgain
      rw [closes.unique closesAgain, inductionHypothesis others]
    | entry _ noBracket => exact absurd (noBracket.symm.trans bracket) (by decide)
  | entry goesOn noBracket reads _ _ inductionHypothesis =>
    cases again with
    | done here => exact absurd here goesOn
    | header bracket => exact absurd (noBracket.symm.trans bracket) (by decide)
    | entry _ _ readsAgain _ others =>
      cases reads.unique readsAgain
      rw [inductionHypothesis others]

/-! ### The places in a layout -/

/-- The value of an entry ends no earlier than it begins, and each value in it begins behind its
opening brace; so with the entries in it. -/
inductive LayoutEntry.Ordered : LayoutEntry → Prop
  | mk {path : List Text} {span : Span} {inline : List LayoutEntry}
      (forward : span.start ≤ span.stop)
      (behind : ∀ entry ∈ inline, span.start < entry.valueSpan.start)
      (ordered : ∀ entry ∈ inline, entry.Ordered) : LayoutEntry.Ordered (.mk path span inline)

/-- The places that a task gives are in order, from the cursor on. -/
def Task.Ordered : (task : Task) → Cursor → task.Result → Prop
  | value, cursor, (span, inline, next) =>
    cursor.position ≤ next.position ∧ span.start = cursor.position ∧ span.start ≤ span.stop ∧
      ∀ entry ∈ inline, span.start < entry.valueSpan.start ∧ entry.Ordered
  | entries opening, cursor, (inline, next) =>
    cursor.position ≤ next.position ∧
      ∀ entry ∈ inline, opening < entry.valueSpan.start ∧ entry.Ordered
  | items _, cursor, next => cursor.position ≤ next.position
  | entry, cursor, (read, next) => cursor.position ≤ next.position ∧ read.Ordered

theorem Run.ordered {task : Task} {cursor : Cursor} {result : task.Result}
    (run : Run task cursor result) : task.Ordered cursor result := by
  induction run with
  | nothing => exact ⟨Nat.le_refl _, rfl, Nat.le_refl _, List.forall_mem_nil _⟩
  | quoted =>
    exact ⟨Cursor.le_advance _ _, rfl, Cursor.le_advance _ _, List.forall_mem_nil _⟩
  | braces _ _ inner =>
    obtain ⟨forward, areOrdered⟩ := inner
    have onward := Nat.le_trans (Cursor.le_advance _ 1) forward
    exact ⟨onward, rfl, onward, areOrdered⟩
  | brackets _ _ inner =>
    have onward := Nat.le_trans (Cursor.le_advance _ 1) inner
    exact ⟨onward, rfl, onward, List.forall_mem_nil _⟩
  | bare => exact ⟨Cursor.le_advance _ _, rfl, Nat.le_add_right _ _, List.forall_mem_nil _⟩
  | entriesDone =>
    exact ⟨Nat.le_trans (Cursor.le_skipSpace _) (Cursor.le_advance _ 1), List.forall_mem_nil _⟩
  | entriesStay _ _ behind _ stays inner =>
    exact ⟨Nat.le_trans (Cursor.le_skipSpace _) (Nat.le_of_eq stays.symm),
      List.forall_mem_singleton.mpr ⟨behind, inner.2⟩⟩
  | entriesTurn _ _ behind _ forward _ inner others =>
    exact ⟨Nat.le_trans (Nat.le_of_lt forward) others.1,
      List.forall_mem_cons.mpr ⟨⟨behind, inner.2⟩, others.2⟩⟩
  | itemsDone => exact Nat.le_trans (Cursor.le_skipTrivia _) (Cursor.le_advance _ 1)
  | itemsStay _ _ _ _ stays =>
    exact Nat.le_trans (Cursor.le_skipTrivia _) (Nat.le_of_eq stays.symm)
  | itemsTurn _ _ _ _ forward _ _ others => exact Nat.le_trans (Nat.le_of_lt forward) others
  | @entry cursor afterKey next path span inline key _ inner =>
    obtain ⟨forward, -, inOrder, areOrdered⟩ := inner
    have toValue := cursor.le_past_readKey
    rw [key.readKey_eq] at toValue
    exact ⟨Nat.le_trans toValue forward, .mk inOrder
      (fun entry member => (areOrdered entry member).1)
      fun entry member => (areOrdered entry member).2⟩

theorem Scans.ordered {content : Text} {table : Option OpenTable} {cursor : Cursor}
    {layout : Layout} (scans : Scans content table cursor layout) :
    ∀ entry ∈ layout.entries, entry.Ordered := by
  induction scans with
  | done => exact List.forall_mem_nil _
  | header _ _ _ _ _ others => exact others
  | entry _ _ reads _ _ others =>
    refine List.forall_mem_cons.mpr ⟨?_, others⟩
    obtain ⟨-, ordered⟩ := reads.ordered
    cases ordered with
    | mk forward behind areOrdered => exact .mk forward behind areOrdered

/-- On every text, malformed or not, the scanner comes to an end, with the layout of the text and with
no other: a run is finite, and by its rules each turn of a loop ends it or goes on, a value between
brackets begins behind the opening one, and the body of a table ends no earlier than its header. In
the layout no value ends before it begins. -/
theorem scans_iff_eq_ofText (content : Text) :
    (∀ layout, Scans content none ⟨0, content⟩ layout ↔ layout = Layout.ofText content) ∧
      ∀ entry ∈ (Layout.ofText content).entries, entry.Ordered := by
  have scans : Scans content none ⟨0, content⟩ (Layout.ofText content) :=
    scans_layoutFrom (content.length + 1) none rfl (Nat.lt_succ_self _)
  refine ⟨fun layout => ⟨fun other => other.unique scans, ?_⟩, scans.ordered⟩
  rintro rfl
  exact scans

end SourceLint.Toml
