/-
This file proves that the readers of the scanner come to an end on every text, also on one that is
malformed. They have a bound on how deep they go, which the text does not set; here their loops run
without one. `Run` says what a run of a reader does, turn by turn, and a run is finite. Each rule for
a turn that is followed by another one says that the other begins further on; each rule for a value
between brackets says that the value begins behind the opening one. The bound of the readers is large
enough: what they give is what the run gives, and no run gives anything else.
-/
import SourceLint.Proofs.Toml.Forward
import SourceLint.Proofs.Toml.Nesting

namespace SourceLint.Toml

/-! ### Runs -/

namespace Cursor

/-- The loop over the parts of a key behind the first. -/
inductive KeyParts : Cursor → List Text × Cursor → Prop
  | done {cursor : Cursor} (noPoint : cursor.isAt '.' = false) : KeyParts cursor ([], cursor)
  | turn {cursor last : Cursor} {parts : List Text} (point : cursor.isAt '.' = true)
      (forward :
        cursor.position < (cursor.advance 1).skipSpace.readKeyPart.2.skipSpace.position)
      (rest : KeyParts (cursor.advance 1).skipSpace.readKeyPart.2.skipSpace (parts, last)) :
      KeyParts cursor ((cursor.advance 1).skipSpace.readKeyPart.1 :: parts, last)

/-- A run over a key. -/
inductive KeyRun : Cursor → List Text × Cursor → Prop
  | key {cursor last : Cursor} {parts : List Text}
      (rest : KeyParts cursor.readKeyPart.2.skipSpace (parts, last)) :
      KeyRun cursor (cursor.readKeyPart.1 :: parts, last)

end Cursor

/-- What a part of the scanner does: it reads a value, the entries of an inline table or the items of
an array, behind a bracket at some position, or an entry. -/
inductive Task where
  | value
  | entries (opening : Nat)
  | items (opening : Nat)
  | entry

/-- What a task gives, with the cursor behind it. -/
abbrev Task.Result : Task → Type
  | value => Span × List LayoutEntry × Cursor
  | entries _ => List LayoutEntry × Cursor
  | items _ => Cursor
  | entry => LayoutEntry × Cursor

/-- A run of a task from a cursor to its result. -/
inductive Run : (task : Task) → Cursor → task.Result → Prop
  | nothing {cursor : Cursor} (here : cursor.rest = []) :
      Run .value cursor (.point cursor.position, [], cursor)
  | quoted {cursor : Cursor} {unit : CodeUnit} {others : Text} (here : cursor.rest = unit :: others)
      (quoted : isQuote unit = true) :
      Run .value cursor
        (⟨cursor.position, (cursor.advance (stringLength unit cursor.rest)).position⟩, [],
          cursor.advance (stringLength unit cursor.rest))
  | braces {cursor next : Cursor} {others : Text} {entries : List LayoutEntry}
      (here : cursor.rest = ('\x7b' : CodeUnit) :: others)
      (inner : Run (.entries cursor.position) (cursor.advance 1) (entries, next)) :
      Run .value cursor (⟨cursor.position, next.position⟩, entries, next)
  | brackets {cursor next : Cursor} {others : Text}
      (here : cursor.rest = ('[' : CodeUnit) :: others)
      (inner : Run (.items cursor.position) (cursor.advance 1) next) :
      Run .value cursor (⟨cursor.position, next.position⟩, [], next)
  | bare {cursor : Cursor} {unit : CodeUnit} {others : Text} (here : cursor.rest = unit :: others)
      (unquoted : isQuote unit = false) (notBrace : unit ≠ '\x7b') (notBracket : unit ≠ '[') :
      Run .value cursor (cursor.readBareValue.1, [], cursor.readBareValue.2)
  | entriesDone {opening : Nat} {cursor : Cursor}
      (closes : cursor.skipSpace.rest = [] ∨ cursor.skipSpace.isAt '\x7d' = true) :
      Run (.entries opening) cursor ([], cursor.skipSpace.advance 1)
  | entriesStay {opening : Nat} {cursor next : Cursor} {entry : LayoutEntry}
      (goesOn : ¬(cursor.skipSpace.rest = [] ∨ cursor.skipSpace.isAt '\x7d' = true))
      (reads : Run .entry cursor.skipSpace (entry, next)) (behind : opening < entry.valueSpan.start)
      (noComma : next.skipSpace.isAt ',' = false)
      (stays : next.skipSpace.position = cursor.skipSpace.position) :
      Run (.entries opening) cursor ([entry], next.skipSpace)
  | entriesTurn {opening : Nat} {cursor next last : Cursor} {entry : LayoutEntry}
      {entries : List LayoutEntry}
      (goesOn : ¬(cursor.skipSpace.rest = [] ∨ cursor.skipSpace.isAt '\x7d' = true))
      (reads : Run .entry cursor.skipSpace (entry, next)) (behind : opening < entry.valueSpan.start)
      (moves : next.skipSpace.isAt ',' = true ∨
        next.skipSpace.position ≠ cursor.skipSpace.position)
      (forward : cursor.position < (next.skipSpace.past ',').position)
      (others : Run (.entries opening) (next.skipSpace.past ',') (entries, last)) :
      Run (.entries opening) cursor (entry :: entries, last)
  | itemsDone {opening : Nat} {cursor : Cursor}
      (closes : cursor.skipTrivia.rest = [] ∨ cursor.skipTrivia.isAt ']' = true) :
      Run (.items opening) cursor (cursor.skipTrivia.advance 1)
  | itemsStay {opening : Nat} {cursor next : Cursor} {span : Span} {inline : List LayoutEntry}
      (goesOn : ¬(cursor.skipTrivia.rest = [] ∨ cursor.skipTrivia.isAt ']' = true))
      (reads : Run .value cursor.skipTrivia (span, inline, next)) (behind : opening < span.start)
      (noComma : next.skipTrivia.isAt ',' = false)
      (stays : next.skipTrivia.position = cursor.skipTrivia.position) :
      Run (.items opening) cursor next.skipTrivia
  | itemsTurn {opening : Nat} {cursor next last : Cursor} {span : Span} {inline : List LayoutEntry}
      (goesOn : ¬(cursor.skipTrivia.rest = [] ∨ cursor.skipTrivia.isAt ']' = true))
      (reads : Run .value cursor.skipTrivia (span, inline, next)) (behind : opening < span.start)
      (moves : next.skipTrivia.isAt ',' = true ∨
        next.skipTrivia.position ≠ cursor.skipTrivia.position)
      (forward : cursor.position < (next.skipTrivia.past ',').position)
      (others : Run (.items opening) (next.skipTrivia.past ',') last) :
      Run (.items opening) cursor last
  | entry {cursor afterKey next : Cursor} {path : List Text} {span : Span}
      {inline : List LayoutEntry} (key : Cursor.KeyRun cursor (path, afterKey))
      (reads : Run .value (afterKey.skipSpace.past '=').skipSpace (span, inline, next)) :
      Run .entry cursor (.mk path span inline, next)

/-! ### The runs of the readers -/

theorem Cursor.keyParts_readKeyParts {content : Text} (fuel : Nat) {cursor : Cursor}
    (along : cursor.Along content) (enough : cursor.rest.length < fuel) :
    KeyParts cursor (readKeyParts fuel cursor) := by
  induction fuel generalizing cursor with
  | zero => exact absurd enough (Nat.not_lt_zero _)
  | succ fuel inductionHypothesis =>
    rw [readKeyParts]
    split
    case isTrue point =>
      have notEmpty := ne_nil_of_isAt point
      have after := (along.advance 1).skipSpace.readKeyPart.skipSpace
      have forward := cursor.lt_readKeyPart_behind_point
      have shorter := along.length_lt after notEmpty forward
      exact .turn point forward (inductionHypothesis after (by omega))
    case isFalse noPoint => exact .done (Bool.eq_false_iff.mpr noPoint)

theorem Cursor.keyRun_readKey {content : Text} {cursor : Cursor} (along : cursor.Along content) :
    KeyRun cursor cursor.readKey :=
  .key (keyParts_readKeyParts _ along.readKeyPart.skipSpace (Nat.lt_succ_self _))

namespace Task

/-- The reader of a task, up to some depth. -/
def read (fuel : Nat) : (task : Task) → Cursor → task.Result
  | value, cursor => readValue fuel cursor
  | entries _, cursor => readInlineEntries fuel cursor
  | items _, cursor => readItems fuel cursor
  | entry, cursor => readEntry fuel cursor

/-- A depth that is enough for a task: four for each unit that is left, since between one unit and
the next the readers call each other at most so often. -/
def depth : Task → Cursor → Nat
  | value, cursor => 4 * cursor.rest.length + 1
  | entries _, cursor => 4 * cursor.rest.length + 3
  | items _, cursor => 4 * cursor.rest.length + 2
  | entry, cursor => 4 * cursor.rest.length + 2

/-- The bracket of a task stands before the cursor. -/
def Opens : Task → Cursor → Prop
  | entries opening, cursor => opening < cursor.position
  | items opening, cursor => opening < cursor.position
  | _, _ => True

end Task

/-- The readers up to a depth run, from where the depth is enough. -/
def Runs (content : Text) (fuel : Nat) : Prop :=
  ∀ (task : Task) (cursor : Cursor), cursor.Along content → task.Opens cursor →
    task.depth cursor ≤ fuel → Run task cursor (task.read fuel cursor)

section

variable {content : Text} {fuel : Nat} (readers : Runs content fuel) {cursor : Cursor}
  (along : cursor.Along content)

include readers along

theorem run_value_succ (enough : 4 * cursor.rest.length ≤ fuel) :
    Run .value cursor (readValue (fuel + 1) cursor) := by
  rw [readValue]
  split
  case h_1 here => exact .nothing here
  case h_2 unit others here =>
    have fewer : (cursor.advance 1).rest.length + 1 = cursor.rest.length := by
      rw [Cursor.advance, here, List.drop_succ_cons, List.drop_zero, List.length_cons]
    split
    case isTrue quoted => exact .quoted here quoted
    case isFalse unquoted =>
      split
      case isTrue isBrace =>
        subst isBrace
        exact .braces here (readers (.entries cursor.position) _ (along.advance 1)
          (Nat.lt_succ_self _) (by dsimp only [Task.depth]; omega))
      case isFalse notBrace =>
        split
        case isTrue isBracket =>
          subst isBracket
          exact .brackets here (readers (.items cursor.position) _ (along.advance 1)
            (Nat.lt_succ_self _) (by dsimp only [Task.depth]; omega))
        case isFalse notBracket =>
          exact .bare here (Bool.eq_false_iff.mpr unquoted) notBrace notBracket

theorem run_entries_succ {opening : Nat} (opens : opening < cursor.position)
    (enough : 4 * cursor.rest.length + 2 ≤ fuel) :
    Run (.entries opening) cursor (readInlineEntries (fuel + 1) cursor) := by
  by_cases goesOn : cursor.skipSpace.rest = [] ∨ cursor.skipSpace.isAt '\x7d' = true
  case pos =>
    rw [readInlineEntries_done goesOn]
    exact .entriesDone goesOn
  case neg =>
    have fewer := along.length_le along.skipSpace cursor.le_skipSpace
    have reads : Run .entry cursor.skipSpace (readEntry fuel cursor.skipSpace) :=
      readers .entry _ along.skipSpace trivial (by dsimp only [Task.depth]; omega)
    obtain ⟨start, forward⟩ := (readForward fuel).entry cursor.skipSpace
    have begins := cursor.le_skipSpace
    have after := (readAlong content fuel).entry along.skipSpace
    cases same : readEntry fuel cursor.skipSpace with
    | mk entry next =>
      rw [same] at reads start forward after
      dsimp only at forward after
      have behind : opening < entry.valueSpan.start :=
        Nat.lt_of_lt_of_le opens (Nat.le_trans begins start)
      by_cases moves : next.skipSpace.isAt ',' = true ∨
        next.skipSpace.position ≠ cursor.skipSpace.position
      · have further := Cursor.lt_past (Nat.le_trans forward next.le_skipSpace) moves
        have shorter := along.skipSpace.length_lt (after.skipSpace.past ',') (not_or.mp goesOn).1
          further
        rw [readInlineEntries_turn goesOn same moves]
        refine .entriesTurn goesOn reads behind moves (Nat.lt_of_le_of_lt begins further) ?_
        exact readers (.entries opening) _ (after.skipSpace.past ',')
          (Nat.lt_trans opens (Nat.lt_of_le_of_lt begins further))
          (by dsimp only [Task.depth]; omega)
      · obtain ⟨noComma, stays⟩ := not_or.mp moves
        rw [readInlineEntries_stay goesOn same (Bool.eq_false_iff.mpr noComma) (not_not.mp stays)]
        exact .entriesStay goesOn reads behind (Bool.eq_false_iff.mpr noComma) (not_not.mp stays)

theorem run_items_succ {opening : Nat} (opens : opening < cursor.position)
    (enough : 4 * cursor.rest.length + 1 ≤ fuel) :
    Run (.items opening) cursor (readItems (fuel + 1) cursor) := by
  by_cases goesOn : cursor.skipTrivia.rest = [] ∨ cursor.skipTrivia.isAt ']' = true
  case pos =>
    rw [readItems_done goesOn]
    exact .itemsDone goesOn
  case neg =>
    have fewer := along.length_le along.skipTrivia cursor.le_skipTrivia
    have reads : Run .value cursor.skipTrivia (readValue fuel cursor.skipTrivia) :=
      readers .value _ along.skipTrivia trivial (by dsimp only [Task.depth]; omega)
    obtain ⟨start, forward⟩ := (readForward fuel).value cursor.skipTrivia
    have begins := cursor.le_skipTrivia
    have after := (readAlong content fuel).value along.skipTrivia
    cases same : readValue fuel cursor.skipTrivia with
    | mk span others =>
      obtain ⟨inline, next⟩ := others
      rw [same] at reads start forward after
      dsimp only at forward after
      have behind : opening < span.start :=
        Nat.lt_of_lt_of_le opens (Nat.le_trans begins (Nat.le_of_eq start.symm))
      by_cases moves : next.skipTrivia.isAt ',' = true ∨
        next.skipTrivia.position ≠ cursor.skipTrivia.position
      · have further := Cursor.lt_past (Nat.le_trans forward next.le_skipTrivia) moves
        have shorter := along.skipTrivia.length_lt (after.skipTrivia.past ',')
          (not_or.mp goesOn).1 further
        rw [readItems_turn goesOn same moves]
        refine .itemsTurn goesOn reads behind moves (Nat.lt_of_le_of_lt begins further) ?_
        exact readers (.items opening) _ (after.skipTrivia.past ',')
          (Nat.lt_trans opens (Nat.lt_of_le_of_lt begins further))
          (by dsimp only [Task.depth]; omega)
      · obtain ⟨noComma, stays⟩ := not_or.mp moves
        rw [readItems_stay goesOn same (Bool.eq_false_iff.mpr noComma) (not_not.mp stays)]
        exact .itemsStay goesOn reads behind (Bool.eq_false_iff.mpr noComma) (not_not.mp stays)

theorem run_entry_succ (enough : 4 * cursor.rest.length + 1 ≤ fuel) :
    Run .entry cursor (readEntry (fuel + 1) cursor) := by
  have atValue := ((along.readKey.skipSpace).past '=').skipSpace
  have fewer := along.length_le atValue cursor.le_past_readKey
  have reads := readers .value _ atValue trivial (by dsimp only [Task.depth]; omega)
  rw [readEntry]
  exact .entry (Cursor.keyRun_readKey along) reads

end

/-- A depth that is enough for the task lets its reader run. -/
theorem runs (content : Text) (fuel : Nat) : Runs content fuel := by
  induction fuel with
  | zero =>
    intro task cursor _ _ enough
    cases task <;> exact absurd enough (Nat.not_succ_le_zero _)
  | succ fuel readers =>
    intro task cursor along opens enough
    cases task with
    | value => exact run_value_succ readers along (Nat.le_of_succ_le_succ enough)
    | entries opening =>
      exact run_entries_succ readers along opens (Nat.le_of_succ_le_succ enough)
    | items opening => exact run_items_succ readers along opens (Nat.le_of_succ_le_succ enough)
    | entry => exact run_entry_succ readers along (Nat.le_of_succ_le_succ enough)

/-! ### One result -/

namespace Cursor

theorem KeyParts.unique {cursor : Cursor} {result other : List Text × Cursor}
    (run : KeyParts cursor result) (again : KeyParts cursor other) : result = other := by
  induction run generalizing other with
  | done noPoint =>
    cases again with
    | done => rfl
    | turn point => exact absurd (noPoint.symm.trans point) (by decide)
  | turn point _ _ inductionHypothesis =>
    cases again with
    | done noPoint => exact absurd (noPoint.symm.trans point) (by decide)
    | turn _ _ rest =>
      cases inductionHypothesis rest
      rfl

theorem KeyRun.unique {cursor : Cursor} {result other : List Text × Cursor}
    (run : KeyRun cursor result) (again : KeyRun cursor other) : result = other := by
  cases run with
  | key rest =>
    cases again with
    | key others =>
      cases rest.unique others
      rfl

/-- Every cursor is along some text. -/
theorem exists_along (cursor : Cursor) : ∃ content, cursor.Along content :=
  ⟨List.replicate cursor.position 0 ++ cursor.rest,
    (List.drop_left' List.length_replicate).symm⟩

theorem KeyRun.readKey_eq {cursor : Cursor} {result : List Text × Cursor}
    (run : KeyRun cursor result) : cursor.readKey = result := by
  obtain ⟨content, along⟩ := cursor.exists_along
  exact (keyRun_readKey along).unique run

end Cursor

/-- From some depth on the reader of a task gives a result. -/
def Task.Reads (task : Task) (cursor : Cursor) (result : task.Result) : Prop :=
  ∃ depth, ∀ fuel, depth ≤ fuel → task.read fuel cursor = result

theorem Task.Reads.of_succ {task : Task} {cursor : Cursor} {result : task.Result} (depth : Nat)
    (reads : ∀ fuel, depth ≤ fuel → task.read (fuel + 1) cursor = result) :
    task.Reads cursor result := by
  refine ⟨depth + 1, fun fuel enough => ?_⟩
  obtain ⟨fuel, rfl⟩ := Nat.exists_eq_succ_of_ne_zero (Nat.ne_zero_of_lt enough)
  exact reads fuel (Nat.le_of_succ_le_succ enough)

/-- What a run comes to is read. -/
theorem Run.reads {task : Task} {cursor : Cursor} {result : task.Result}
    (run : Run task cursor result) : task.Reads cursor result := by
  induction run with
  | nothing here =>
    refine .of_succ 0 fun fuel _ => ?_
    change readValue (fuel + 1) _ = _
    rw [readValue, here]
  | quoted here quoted => exact .of_succ 0 fun fuel _ => readValue_quoted here quoted
  | braces here _ inductionHypothesis =>
    obtain ⟨depth, reads⟩ := inductionHypothesis
    refine .of_succ depth fun fuel enough => (readValue_brace here).trans ?_
    have inner : readInlineEntries fuel _ = _ := reads fuel enough
    rw [inner]
  | brackets here _ inductionHypothesis =>
    obtain ⟨depth, reads⟩ := inductionHypothesis
    refine .of_succ depth fun fuel enough => (readValue_bracket here).trans ?_
    have inner : readItems fuel _ = _ := reads fuel enough
    rw [inner]
  | bare here unquoted notBrace notBracket =>
    exact .of_succ 0 fun fuel _ => readValue_bare here unquoted notBrace notBracket
  | entriesDone closes => exact .of_succ 0 fun fuel _ => readInlineEntries_done closes
  | entriesStay goesOn _ _ noComma stays inductionHypothesis =>
    obtain ⟨depth, reads⟩ := inductionHypothesis
    refine .of_succ depth fun fuel enough => ?_
    have first : readEntry fuel _ = _ := reads fuel enough
    exact readInlineEntries_stay goesOn first noComma stays
  | entriesTurn goesOn _ _ moves _ _ entryHypothesis othersHypothesis =>
    obtain ⟨depth, reads⟩ := entryHypothesis
    obtain ⟨further, readsOthers⟩ := othersHypothesis
    refine .of_succ (max depth further) fun fuel enough => ?_
    have first : readEntry fuel _ = _ := reads fuel (Nat.max_le.mp enough).1
    have others : readInlineEntries fuel _ = _ := readsOthers fuel (Nat.max_le.mp enough).2
    exact (readInlineEntries_turn goesOn first moves).trans (by rw [others])
  | itemsDone closes => exact .of_succ 0 fun fuel _ => readItems_done closes
  | itemsStay goesOn _ _ noComma stays inductionHypothesis =>
    obtain ⟨depth, reads⟩ := inductionHypothesis
    refine .of_succ depth fun fuel enough => ?_
    have first : readValue fuel _ = _ := reads fuel enough
    exact readItems_stay goesOn first noComma stays
  | itemsTurn goesOn _ _ moves _ _ valueHypothesis othersHypothesis =>
    obtain ⟨depth, reads⟩ := valueHypothesis
    obtain ⟨further, readsOthers⟩ := othersHypothesis
    refine .of_succ (max depth further) fun fuel enough => ?_
    have first : readValue fuel _ = _ := reads fuel (Nat.max_le.mp enough).1
    have others : readItems fuel _ = _ := readsOthers fuel (Nat.max_le.mp enough).2
    exact (readItems_turn goesOn first moves).trans others
  | entry key _ inductionHypothesis =>
    obtain ⟨depth, reads⟩ := inductionHypothesis
    refine .of_succ depth fun fuel enough => ?_
    have value : readValue fuel _ = _ := reads fuel enough
    rw [Cursor.past] at value
    change readEntry (fuel + 1) _ = _
    rw [readEntry, key.readKey_eq]
    dsimp only
    rw [value]

/-- A task has one result. -/
theorem Run.unique {task : Task} {cursor : Cursor} {result other : task.Result}
    (run : Run task cursor result) (again : Run task cursor other) : result = other := by
  obtain ⟨depth, reads⟩ := run.reads
  obtain ⟨further, readsAgain⟩ := again.reads
  calc
    result = task.read (max depth further) cursor := (reads _ (Nat.le_max_left _ _)).symm
    _ = other := readsAgain _ (Nat.le_max_right _ _)

end SourceLint.Toml
