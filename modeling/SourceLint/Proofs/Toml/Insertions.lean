/-
This file proves what a document stands for with a further field in one of its tables: for the same
table, with the field in it. The field may be put at the end of a table that a header declares, or
behind the document, under a header of its own.
-/
import SourceLint.Proofs.Toml.Additions
import SourceLint.Proofs.Toml.TableEnd

namespace SourceLint.Toml

variable {Scalar : Type}

/-! ### Fields as they are read -/

namespace Draft

theorem plainFields_append (fields others : Table Scalar) :
    plainFields (fields ++ others) = plainFields fields ++ plainFields others := by
  induction fields with
  | nil => rfl
  | cons field fields inductionHypothesis =>
    exact congrArg (List.cons _) inductionHypothesis

theorem plainFields_set (fields : Table Scalar) (key : Text) (value : Value Scalar) :
    plainFields (Fields.set fields key value) = Fields.set (plainFields fields) key value.plain := by
  fun_induction Fields.set fields key value with
  | case1 => rfl
  | case2 old rest =>
    rw [plainFields, plainFields, Fields.set, if_pos rfl]
  | case3 other old rest unlike inductionHypothesis =>
    rw [plainFields, plainFields, Fields.set, if_neg unlike, inductionHypothesis]

theorem added_plainFields {key : Text} {value : Value Scalar} {fields more : Table Scalar}
    (added : Fields.Added key value fields more) :
    Fields.Added key value.plain (plainFields fields) (plainFields more) := by
  obtain ⟨isNew, front, back, rfl, rfl⟩ := added
  refine ⟨?_, plainFields front, plainFields back, plainFields_append front back, ?_⟩
  · rw [get?_plainFields, isNew]
    rfl
  · rw [plainFields_append, plainFields]

end Draft

namespace Written

variable {dialect : Dialect} {draft next last : Draft dialect.Scalar} {name field : Text}
  {value : Draft.Value dialect.Scalar} {new : Line dialect} {document changed : Document dialect}
  {inner : Draft.Table dialect.Scalar}

/-! ### A field at the end of a table -/

/-- A line gives a field of the open table a value. -/
def Line.Defines (line : Line dialect) (field : Text) (value : Draft.Value dialect.Scalar) : Prop :=
  ∃ own, line.item = some (.pair own) ∧
    ∀ fields, own.define? fields = Draft.Table.define? value fields [field]

theorem Line.Defines.next? (defines : new.Defines field value) (current : draft.current = [name])
    (found : draft.fields.get? name = some (.table true inner))
    (isNew : Fields.get? inner field = none) :
    new.next? draft = some (withTable draft name (Fields.set inner field value)) := by
  obtain ⟨own, isPair, defines⟩ := defines
  rw [Line.next?, isPair]
  change Option.map _ (Draft.Table.change? own.define? draft.fields draft.current) = _
  rw [current, Draft.Table.change?, found]
  simp only [Draft.Table.change?, defines, Draft.Table.define?, isNew, Option.isSome_none,
    Bool.false_eq_true, if_false, Option.map_some, withTable, current]

/-- A line that is no header leaves the table open. -/
theorem Line.current_eq {line : Line dialect} (noHeader : line.header? = none)
    (applies : line.next? draft = some next) : next.current = draft.current := by
  rw [(line.leads applies 0).2.1]
  obtain ⟨_, item, _, _⟩ := line
  match item with
  | none => rfl
  | some (.pair own) => rfl
  | some (.header _ _ _ _) => cases noHeader

/-- A field put before the first header of a document comes to the open table, if nothing else gives
it a value there. -/
theorem Inserted.adds (inserted : Inserted new document changed) (defines : new.Defines field value)
    (applies : document.next? draft = some last) (current : draft.current = [name])
    (found : draft.fields.get? name = some (.table true inner)) :
    ∃ after, last.fields.get? name = some (.table true after) ∧
      (Fields.get? after field = none → ∃ more, Fields.Added field value after more ∧
        changed.next? draft = some (withTable last name more)) := by
  induction inserted generalizing draft inner with
  | here document =>
    obtain ⟨after, foundLast, carries⟩ := Document.carries applies found
    refine ⟨after, foundLast, fun isNew => ?_⟩
    have isNewInner := carries.get?_eq_none isNew
    obtain ⟨more, added, again⟩ := carries.adds field value _ isNew (Fields.added_set isNewInner)
    refine ⟨more, added, ?_⟩
    rw [Document.next?, defines.next? current found isNewInner]
    exact again
  | @atEnd line noHeader =>
    obtain ⟨after, foundLast, -⟩ := Line.carries applies found
    refine ⟨after, foundLast, fun isNew => ⟨_, Fields.added_set isNew, ?_⟩⟩
    have currentLast := (Line.current_eq noHeader applies).trans current
    change (line.next? draft).bind _ = _
    rw [show line.next? draft = some last from applies]
    change (new.next? last).bind _ = _
    rw [defines.next? currentLast foundLast isNew]
    rfl
  | @behind line document changed noHeader newline inserted inductionHypothesis =>
    obtain ⟨next, appliesLine, appliesOthers⟩ := Option.bind_eq_some_iff.mp applies
    obtain ⟨middle, foundNext, -⟩ := Line.carries appliesLine found
    obtain ⟨after, foundLast, adds⟩ := inductionHypothesis appliesOthers
      ((Line.current_eq noHeader appliesLine).trans current) foundNext
    refine ⟨after, foundLast, fun isNew => ?_⟩
    obtain ⟨more, added, again⟩ := adds isNew
    refine ⟨more, added, ?_⟩
    rw [Document.next?, appliesLine]
    exact again

/-- What a header opens. -/
theorem Line.next?_of_header {line : Line dialect} {double : Bool} {key : Key dialect}
    (isHeader : line.header? = some (double, key)) :
    line.next? draft = draft.header? double key.path := by
  obtain ⟨_, _, isItem⟩ := line.item_of_header? isHeader
  rw [Line.next?, isItem]
  rfl

/-- A field put at the end of a declared table comes to that table. -/
theorem InsertedUnder.adds (inserted : InsertedUnder [name] new document changed)
    (noEscape : backslash ∉ name) (defines : new.Defines field value)
    (applies : document.next? draft = some last) {after : Draft.Table dialect.Scalar}
    (isTable : last.fields.get? name = some (.table true after))
    (isNew : Fields.get? after field = none) :
    ∃ more, Fields.Added field value after more ∧
      changed.next? draft = some (withTable last name more) := by
  have plain : ∀ part ∈ [name], backslash ∉ part := List.forall_mem_singleton.mpr noEscape
  induction inserted generalizing draft with
  | @header line double key document changed isHeader named newline inserted =>
    obtain ⟨next, appliesLine, appliesOthers⟩ := Option.bind_eq_some_iff.mp applies
    have opens := appliesLine
    rw [Line.next?_of_header isHeader, key.path_eq_of_scanned named plain] at opens
    obtain ⟨opened, found, headed, -⟩ := Draft.exists_isHeaded_of_header? opens
    obtain ⟨_, same, becomes⟩ := Document.becomes appliesOthers found
    cases same.symm.trans isTable
    obtain ⟨inner, rfl⟩ := becomes.exists_table headed
    obtain ⟨_, same, adds⟩ := inserted.adds defines appliesOthers (Draft.header?_eq_some opens).1 found
    cases same.symm.trans isTable
    obtain ⟨more, added, again⟩ := adds isNew
    refine ⟨more, added, ?_⟩
    rw [Document.next?, appliesLine]
    exact again
  | @lastHeader line double key isHeader named =>
    have opens : line.next? draft = some last := applies
    rw [Line.next?_of_header isHeader, key.path_eq_of_scanned named plain] at opens
    refine ⟨_, Fields.added_set isNew, ?_⟩
    change (line.next? draft).bind _ = _
    rw [show line.next? draft = some last from applies]
    change (new.next? last).bind _ = _
    rw [defines.next? (Draft.header?_eq_some opens).1 isTable isNew]
    rfl
  | @behind line document changed unlike newline inserted inductionHypothesis =>
    obtain ⟨next, appliesLine, appliesOthers⟩ := Option.bind_eq_some_iff.mp applies
    obtain ⟨more, added, again⟩ := inductionHypothesis appliesOthers
    refine ⟨more, added, ?_⟩
    rw [Document.next?, appliesLine]
    exact again

/-- What a header in single brackets declares is a declared table of the document. -/
theorem Document.exists_table_of_header {document : Document dialect} {key : Key dialect}
    (isHeader : (false, key) ∈ document.headers) (named : key.path = [name])
    (applies : document.next? draft = some last) :
    ∃ after, last.fields.get? name = some (.table true after) := by
  have declared {line : Line dialect} {draft next : Draft dialect.Scalar}
      (isHeader : (false, key) ∈ line.header?.toList) (applies : line.next? draft = some next) :
      ∃ inner, next.fields.get? name = some (.table true inner) := by
    rw [Line.next?_of_header (Option.mem_toList.mp isHeader), named] at applies
    obtain ⟨_, found, -, isTable⟩ := Draft.exists_isHeaded_of_header? applies
    obtain ⟨inner, rfl⟩ := isTable rfl
    exact ⟨inner, found⟩
  induction document generalizing draft with
  | last line => exact declared isHeader applies
  | more line newline others inductionHypothesis =>
    obtain ⟨next, appliesLine, appliesOthers⟩ := Option.bind_eq_some_iff.mp applies
    rcases List.mem_append.mp isHeader with isLine | isOther
    · obtain ⟨inner, found⟩ := declared isLine appliesLine
      obtain ⟨after, foundLast, -⟩ := Document.carries appliesOthers found
      exact ⟨after, foundLast⟩
    · exact inductionHypothesis isOther appliesOthers

/-- A document whose first header for a table has a further field put behind its table stands for the
same, with the field in the table. -/
theorem Document.exists_added {document changed : Document dialect} {key : Key dialect}
    (isHeader : (false, key) ∈ document.headers) (named : key.path = [name])
    (noEscape : backslash ∉ name) (defines : new.Defines field value)
    (inserted : InsertedUnder [name] new document changed) {table : Table dialect.Scalar}
    (isTable : document.table? = some table) :
    ∃ fields, table.get? name = some (.table fields) ∧
      (Fields.get? fields field = none → ∃ more, Fields.Added field value.plain fields more ∧
        changed.table? = some (table.set name (.table more))) := by
  obtain ⟨last, applies, rfl⟩ := Option.map_eq_some_iff.mp isTable
  obtain ⟨after, found⟩ := Document.exists_table_of_header isHeader named applies
  refine ⟨Draft.plainFields after, ?_, fun isNew => ?_⟩
  · rw [Draft.get?_plainFields, found]
    exact congrArg some (by rw [Draft.Value.plain])
  · rw [Draft.get?_plainFields, Option.map_eq_none_iff] at isNew
    obtain ⟨more, added, again⟩ := inserted.adds noEscape defines applies found isNew
    refine ⟨_, Draft.added_plainFields added, ?_⟩
    rw [Document.table?, again]
    exact congrArg some ((Draft.plainFields_set _ _ _).trans (by rw [Draft.Value.plain]))

/-! ### A table behind a document -/

/-- A document with lines behind it. -/
def Document.append : Document dialect → Document dialect → Document dialect
  | .last line, further => if line.source = [] then further else .more line .lineFeed further
  | .more line newline others, further => .more line newline (others.append further)

theorem Document.next?_append (document further : Document dialect) (draft : Draft dialect.Scalar) :
    (document.append further).next? draft =
      (document.next? draft).bind fun draft => further.next? draft := by
  induction document generalizing draft with
  | last line =>
    rw [Document.append]
    split
    case isTrue isEmpty =>
      have noItem : line.item = none := by
        cases isItem : line.item with
        | none => rfl
        | some item =>
          obtain ⟨front, unit, isInked, -⟩ := item.endsInked
          have length := line.length_source
          rw [isEmpty, isItem, itemSource, isInked, List.length_append, List.length_singleton,
            List.length_nil] at length
          omega
      rw [Document.next?, Line.next?, noItem]
      rfl
    case isFalse => rfl
  | more line newline others inductionHypothesis =>
    rw [Document.append, Document.next?, Document.next?, Option.bind_assoc]
    exact congrArg _ (funext inductionHypothesis)

/-- Lines go behind the last line feed of a document, or behind one of their own. -/
theorem Document.source_append (document further : Document dialect) :
    (document.append further).source = document.source ++
      ((if document.source = [] ∨ document.source.getLast? = some 0x0A then [] else [0x0A]) ++
        further.source) := by
  induction document with
  | last line =>
    rw [Document.append]
    have notFeed : line.source.getLast? ≠ some 0x0A := fun isFeed => by
      obtain ⟨front, same⟩ := List.getLast?_eq_some_iff.mp isFeed
      exact line.not_blank_behind_lineFeed same (List.forall_mem_nil _)
    split
    case isTrue isEmpty =>
      rw [Document.source.eq_def (.last line)]
      simp only [isEmpty, true_or, if_true, List.nil_append]
    case isFalse notEmpty =>
      rw [Document.source.eq_def (.last line)]
      simp only [notEmpty, notFeed, or_self, if_false]
      rfl
  | more line newline others inductionHypothesis =>
    obtain ⟨front, isNewline, -⟩ := newline.exists_front
    have notNil : (more line newline others).source ≠ [] := by simp [Document.source, isNewline]
    have sameLast : (more line newline others).source.getLast? = some 0x0A ↔
        others.source = [] ∨ others.source.getLast? = some 0x0A := by
      rw [Document.source, isNewline]
      obtain isNil | ⟨before, unit, isSource⟩ := List.eq_nil_or_concat' others.source
      · simp [isNil]
      · simp [isSource, ← List.append_assoc]
    rw [Document.append, Document.source, inductionHypothesis]
    simp only [notNil, sameLast, false_or]
    rw [Document.source]
    simp only [List.append_assoc]

/-- No line of a document declares a table or gives it a value. -/
def Document.Avoids (document : Document dialect) (name : Text) : Prop :=
  (∀ header ∈ document.headers, header.2.path ≠ [name]) ∧
    ∀ location ∈ document.locations Key.path [] 0, location.path ≠ [name]

end Written

namespace Draft

/-- A name is free, or it stands for a table that only longer paths have put there. -/
def Undeclared (fields : Table Scalar) (name : Text) : Prop :=
  ∀ value, Fields.get? fields name = some value → ∃ inner, value = .table false inner

variable {fields changed : Table Scalar} {name key : Text} {value : Value Scalar}
  {operation : Table Scalar → Option (Table Scalar)} {path : List Text}

theorem Undeclared.set (undeclared : Undeclared fields name)
    (isTable : name = key → ∃ inner, value = .table false inner) :
    Undeclared (Fields.set fields key value) name := by
  intro old found
  by_cases same : name = key
  · subst same
    rw [Fields.get?_set_self] at found
    cases found
    exact isTable rfl
  · rw [Fields.get?_set_of_ne same] at found
    exact undeclared old found

/-- What longer paths do to a table declares it not. -/
theorem Undeclared.change? (undeclared : Undeclared fields name)
    (changes : Table.change? operation fields (key :: path) = some changed) :
    Undeclared changed name := by
  rw [Table.change?] at changes
  split at changes
  case h_1 =>
    obtain ⟨inner, -, rfl⟩ := Option.map_eq_some_iff.mp changes
    exact undeclared.set fun _ => ⟨inner, rfl⟩
  case h_2 declared inner found =>
    obtain ⟨more, -, rfl⟩ := Option.map_eq_some_iff.mp changes
    refine undeclared.set fun same => ?_
    obtain ⟨_, isTable⟩ := undeclared _ (same ▸ found)
    cases isTable
    exact ⟨more, rfl⟩
  case h_3 last others found =>
    obtain ⟨more, -, rfl⟩ := Option.map_eq_some_iff.mp changes
    refine undeclared.set fun same => ?_
    obtain ⟨_, isTable⟩ := undeclared _ (same ▸ found)
    cases isTable
  case h_4 => cases changes

theorem Undeclared.define? (undeclared : Undeclared fields name) (unlike : path ≠ [name])
    (defines : Table.define? value fields path = some changed) : Undeclared changed name := by
  rw [Table.define?.eq_def] at defines
  split at defines
  case h_1 => cases defines
  case h_2 =>
    split at defines
    · cases defines
    · cases defines
      exact undeclared.set fun same => absurd (same ▸ rfl) unlike
  case h_3 =>
    split at defines
    case h_1 =>
      obtain ⟨inner, -, rfl⟩ := Option.map_eq_some_iff.mp defines
      exact undeclared.set fun _ => ⟨inner, rfl⟩
    case h_2 =>
      obtain ⟨inner, -, rfl⟩ := Option.map_eq_some_iff.mp defines
      exact undeclared.set fun _ => ⟨inner, rfl⟩
    case h_3 => cases defines

theorem Undeclared.open? {double : Bool} (undeclared : Undeclared fields name) (unlike : name ≠ key)
    (opens : Table.open? double key fields = some changed) : Undeclared changed name := by
  obtain ⟨new, rfl, -⟩ := (Table.acts_open? double key).1 fields changed opens
  exact undeclared.set fun same => absurd same unlike

end Draft

namespace Written

variable {dialect : Dialect} {draft next last : Draft dialect.Scalar} {name field : Text}

theorem Line.undeclared {line : Line dialect} (applies : line.next? draft = some next)
    (noHeader : ∀ header ∈ line.header?, header.2.path ≠ [name]) {position : Nat}
    (noValue : ∀ location ∈ line.locations Key.path draft.current position, location.path ≠ [name])
    (undeclared : Draft.Undeclared draft.fields name) : Draft.Undeclared next.fields name := by
  obtain ⟨before, item, after, comment⟩ := line
  match item with
  | none =>
    cases applies
    exact undeclared
  | some (.header double _ key _) =>
    obtain ⟨-, front, part, isPath, changes⟩ := Draft.header?_eq_some applies
    have unlike := noHeader (double, key) rfl
    dsimp only at unlike
    rw [isPath] at unlike
    cases front with
    | nil => exact undeclared.open? (fun same => unlike (same ▸ rfl)) changes
    | cons first front => exact undeclared.change? changes
  | some (.pair (.mk key before after value)) =>
    obtain ⟨fields, changes, rfl⟩ := Option.map_eq_some_iff.mp applies
    cases isCurrent : draft.current with
    | nil =>
      rw [isCurrent] at changes noValue
      change Pair.define? _ draft.fields = some fields at changes
      rw [Pair.define?] at changes
      obtain ⟨given, -, defines⟩ := Option.bind_eq_some_iff.mp changes
      refine undeclared.define? (fun same => ?_) defines
      refine noValue _ (List.mem_map.mpr ⟨_, List.mem_cons_self, rfl⟩) ?_
      exact same
    | cons first rest =>
      rw [isCurrent] at changes
      exact undeclared.change? changes

/-- A table that no line of a document declares or gives a value is not declared there. -/
theorem Document.undeclared {document : Document dialect} (applies : document.next? draft = some last)
    (noHeader : ∀ header ∈ document.headers, header.2.path ≠ [name]) {position : Nat}
    (noValue : ∀ location ∈ document.locations Key.path draft.current position,
      location.path ≠ [name])
    (undeclared : Draft.Undeclared draft.fields name) : Draft.Undeclared last.fields name := by
  induction document generalizing draft position with
  | last line =>
    exact Line.undeclared applies (fun header member => noHeader header (Option.mem_toList.mpr member))
      noValue undeclared
  | more line newline others inductionHypothesis =>
    obtain ⟨next, appliesLine, appliesOthers⟩ := Option.bind_eq_some_iff.mp applies
    obtain ⟨noHeaderLine, noHeaderOthers⟩ := List.forall_mem_append.mp noHeader
    obtain ⟨noValueLine, noValueOthers⟩ := List.forall_mem_append.mp noValue
    have current := (line.leads appliesLine position).2.1
    rw [← current] at noValueOthers
    exact inductionHypothesis appliesOthers noHeaderOthers noValueOthers (Line.undeclared appliesLine
      (fun header member => noHeaderLine header (Option.mem_toList.mpr member)) noValueLine undeclared)

/-- Behind a document that does neither a table can be declared, and a further field be put into it: the
document stands for the same, with that field in the table. -/
theorem Document.exists_declared {document further : Document dialect} {header new : Line dialect}
    {key : Key dialect} {value : Draft.Value dialect.Scalar}
    (avoids : document.Avoids name) (isHeader : header.header? = some (false, key))
    (named : key.path = [name]) (defines : new.Defines field value)
    (isFurther : further = .more header .lineFeed (.more new .lineFeed (.last .empty)))
    {table : Table dialect.Scalar} (isTable : document.table? = some table) :
    ∃ fields, (table.get? name = none ∧ fields = [] ∨ table.get? name = some (.table fields)) ∧
      (Fields.get? fields field = none → (document.append further).table? =
        some (table.set name (.table (Fields.set fields field value.plain)))) := by
  obtain ⟨last, applies, rfl⟩ := Option.map_eq_some_iff.mp isTable
  have undeclared := Document.undeclared applies avoids.1 avoids.2 (nofun : Draft.Undeclared [] name)
  obtain ⟨inner, isInner, declares⟩ : ∃ inner : Draft.Table dialect.Scalar,
      (Fields.get? last.fields name = none ∧ inner = [] ∨
        Fields.get? last.fields name = some (.table false inner)) ∧
      last.header? false [name] = some ⟨Fields.set last.fields name (.table true inner), [name]⟩ := by
    have opens := Draft.header?_concat last false [] name
    rw [List.nil_append] at opens
    change _ = Option.map _ (Draft.Table.declare? name last.fields) at opens
    rw [opens, Draft.Table.declare?]
    cases found : Fields.get? last.fields name with
    | none => exact ⟨[], Or.inl ⟨rfl, rfl⟩, rfl⟩
    | some value =>
      obtain ⟨inner, rfl⟩ := undeclared value found
      exact ⟨inner, Or.inr rfl, rfl⟩
  refine ⟨Draft.plainFields inner, ?_, fun isNew => ?_⟩
  · rw [Draft.get?_plainFields]
    obtain ⟨none, rfl⟩ | found := isInner
    · exact Or.inl ⟨by rw [none]; rfl, rfl⟩
    · exact Or.inr (by rw [found, Option.map_some, Draft.Value.plain])
  · rw [Draft.get?_plainFields, Option.map_eq_none_iff] at isNew
    have appliesNew :
        new.next? ⟨Fields.set last.fields name (.table true inner), [name]⟩ = some _ :=
      defines.next? rfl Fields.get?_set_self isNew
    rw [Document.table?, Document.next?_append, applies, isFurther]
    change Option.map _ ((header.next? last).bind _) = _
    rw [Line.next?_of_header isHeader, named, declares]
    change Option.map _ ((new.next? _).bind _) = _
    rw [appliesNew]
    refine congrArg some ?_
    change Draft.plainFields (Fields.set (Fields.set last.fields name _) name _) = _
    rw [Fields.set_set, Draft.plainFields_set, Draft.Value.plain, Draft.plainFields_set]

end Written

end SourceLint.Toml
