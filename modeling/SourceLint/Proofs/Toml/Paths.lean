/-
This file proves that a document has at each path what its lines define there. A path leads to a
value through tables, whether they have headers, come up in dotted keys or stand in braces. Later
lines extend the tables on the way, but what a path leads to stays, if it is no table itself; of
tables in double brackets only the last counts, so that nothing is said of the paths through them.
-/
import Mathlib.Data.Option.Basic
import SourceLint.Proofs.Toml.Places

namespace SourceLint.Toml

variable {Scalar : Type}

namespace Value

/-- The value at a path. Arrays are not entered. -/
def at? : Value Scalar → List Text → Option (Value Scalar)
  | value, [] => some value
  | value, key :: rest => do
    let fields ← value.fields?
    let inner ← Fields.get? fields key
    inner.at? rest

/-- A path goes on from an array. -/
def PassesArray (value : Value Scalar) (path : List Text) : Prop :=
  ∃ front key rest items, path = front ++ key :: rest ∧ value.at? front = some (.array items)

end Value

namespace Fields

variable {Value : Type} {fields : Fields Value} {key other : Text} {value : Value}

@[simp] theorem get?_set_self : get? (set fields key value) key = some value := by
  fun_induction set fields key value with
  | case1 => simp [get?]
  | case2 => simp [get?]
  | case3 other old rest unlike inductionHypothesis =>
    rw [← inductionHypothesis]
    simp [get?, List.lookup_cons, beq_false_of_ne (Ne.symm unlike)]

theorem get?_set_of_ne (unlike : other ≠ key) :
    get? (set fields key value) other = get? fields other := by
  fun_induction set fields key value with
  | case1 => simp [get?, List.lookup_cons, beq_false_of_ne unlike]
  | case2 => simp [get?, List.lookup_cons, beq_false_of_ne unlike]
  | case3 name old rest _ inductionHypothesis =>
    simp only [get?, List.lookup_cons] at inductionHypothesis ⊢
    rw [inductionHypothesis]

end Fields

namespace Draft

theorem get?_plainFields (fields : Table Scalar) (key : Text) :
    Fields.get? (plainFields fields) key = (Fields.get? fields key).map Value.plain := by
  induction fields with
  | nil => rfl
  | cons field rest inductionHypothesis =>
    obtain ⟨name, value⟩ := field
    simp only [Fields.get?, plainFields, List.lookup_cons] at inductionHypothesis ⊢
    cases key == name
    · exact inductionHypothesis
    · rfl

theorem Value.fields?_plain (value : Value Scalar) :
    value.plain.fields? = value.fields?.map plainFields := by
  cases value <;> (rw [Value.plain]; rfl)

namespace Value

/-- A path leads to a value, or it goes through tables in double brackets. -/
def Leads (given : Value Scalar) : Value Scalar → List Text → Prop
  | value, [] => value = given
  | value, key :: rest =>
    (∃ items, value = .tables items) ∨
      ∃ fields inner, value.fields? = some fields ∧ Fields.get? fields key = some inner ∧
        Leads given inner rest

/-- No later line adds anything to a value. -/
def Settled (value : Value Scalar) : Prop :=
  (∀ declared fields, value ≠ .table declared fields) ∧ ∀ items, value ≠ .tables items

/-- What a path leads to is what there is at the path. -/
theorem at?_of_leads {given value : Value Scalar} {path : List Text} (leads : given.Leads value path) :
    value.plain.at? path = some given.plain ∨ value.plain.PassesArray path := by
  induction path generalizing value with
  | nil =>
    cases leads
    exact Or.inl rfl
  | cons key rest inductionHypothesis =>
    obtain ⟨items, rfl⟩ | ⟨fields, inner, table, found, leads⟩ := leads
    · exact Or.inr ⟨[], key, rest, _, rfl, by rw [plain, Toml.Value.at?]⟩
    · have enters (path : List Text) : value.plain.at? (key :: path) = inner.plain.at? path := by
        simp [Toml.Value.at?, value.fields?_plain, table, get?_plainFields, found]
      obtain same | ⟨front, next, after, items, rfl, through⟩ := inductionHypothesis leads
      · exact Or.inl ((enters rest).trans same)
      · exact Or.inr ⟨key :: front, next, after, items, rfl, (enters front).trans through⟩

end Value

namespace Table

variable {fields changed inner more : Table Scalar} {key other : Text} {value given : Value Scalar}
  {rest : List Text}

/-! ### Where paths lead -/

/-- A path leads from the fields of a table to a value, or goes through tables in double brackets. -/
def Leads (given : Value Scalar) (fields : Table Scalar) (key : Text) (rest : List Text) : Prop :=
  ∃ inner, Fields.get? fields key = some inner ∧ given.Leads inner rest

theorem leads_iff (isTable : value.fields? = some fields) :
    given.Leads value (key :: rest) ↔ fields.Leads given key rest := by
  constructor
  · rintro (⟨items, rfl⟩ | ⟨others, inner, same, found, leads⟩)
    · cases isTable
    · cases isTable.symm.trans same
      exact ⟨inner, found, leads⟩
  · rintro ⟨inner, found, leads⟩
    exact Or.inr ⟨fields, inner, isTable, found, leads⟩

theorem leads_table_iff {declared : Bool} :
    given.Leads (.table declared fields) (key :: rest) ↔ fields.Leads given key rest :=
  leads_iff rfl

theorem leads_inlineTable_iff :
    given.Leads (.inlineTable fields) (key :: rest) ↔ fields.Leads given key rest :=
  leads_iff rfl

/-- All paths lead from the changed fields to the settled values that they led to before. -/
def Extend (fields changed : Table Scalar) : Prop :=
  ∀ given : Value Scalar, given.Settled → ∀ key rest, fields.Leads given key rest →
    changed.Leads given key rest

theorem Extend.refl (fields : Table Scalar) : fields.Extend fields := fun _ _ _ _ leads => leads

theorem Extend.trans (first : fields.Extend more) (second : more.Extend changed) :
    fields.Extend changed :=
  fun given settled key rest leads => second given settled key rest (first given settled key rest leads)

/-- A field is replaced by one to which all its own paths lead. -/
theorem extend_set (keeps : ∀ old, Fields.get? fields key = some old → ∀ given : Value Scalar,
    given.Settled → ∀ rest, given.Leads old rest → given.Leads value rest) :
    fields.Extend (Fields.set fields key value) := by
  rintro given settled name rest ⟨old, found, leads⟩
  by_cases same : name = key
  · subst same
    exact ⟨value, Fields.get?_set_self, keeps old found given settled rest leads⟩
  · exact ⟨old, (Fields.get?_set_of_ne same).trans found, leads⟩

theorem extend_set_new (isNew : Fields.get? fields key = none) (value : Value Scalar) :
    fields.Extend (Fields.set fields key value) :=
  extend_set fun old found => by rw [isNew] at found; cases found

theorem extend_set_table {declared : Bool} (after : Bool)
    (found : Fields.get? fields key = some (.table declared inner)) (grows : inner.Extend more) :
    fields.Extend (Fields.set fields key (.table after more)) := by
  refine extend_set fun old isOld given settled rest leads => ?_
  cases found.symm.trans isOld
  cases rest with
  | nil =>
    cases leads
    exact absurd rfl (settled.1 declared inner)
  | cons next rest =>
    exact leads_table_iff.mpr (grows given settled next rest (leads_table_iff.mp leads))

theorem extend_set_tables {items others : List (Table Scalar)}
    (found : Fields.get? fields key = some (.tables items)) :
    fields.Extend (Fields.set fields key (.tables others)) := by
  refine extend_set fun old isOld given settled rest leads => ?_
  cases found.symm.trans isOld
  cases rest with
  | nil =>
    cases leads
    exact absurd rfl (settled.2 items)
  | cons next rest => exact Or.inl ⟨others, rfl⟩

/-! ### Operations -/

/-- A dotted key extends the fields, and leads to its value. -/
theorem extend_of_define? {path : List Text} (defines : define? value fields path = some changed) :
    fields.Extend changed ∧ ∃ key rest, path = key :: rest ∧
      ∀ given after, given.Leads value after → changed.Leads given key (rest ++ after) := by
  fun_induction define? value fields path generalizing changed with
  | case1 => cases defines
  | case2 => cases defines
  | case3 fields key isNew =>
    cases defines
    exact ⟨extend_set_new (by simpa using isNew) value, key, [], rfl,
      fun given after leads => ⟨value, Fields.get?_set_self, leads⟩⟩
  | case4 fields key next rest isNew inductionHypothesis =>
    obtain ⟨inner, definesInner, rfl⟩ := Option.map_eq_some_iff.mp defines
    obtain ⟨-, _, _, same, leads⟩ := inductionHypothesis definesInner
    cases same
    exact ⟨extend_set_new isNew _, key, next :: rest, rfl, fun given after leadsOn =>
      ⟨_, Fields.get?_set_self, leads_table_iff.mpr (leads given after leadsOn)⟩⟩
  | case5 fields key next rest inner found inductionHypothesis =>
    obtain ⟨more, definesInner, rfl⟩ := Option.map_eq_some_iff.mp defines
    obtain ⟨grows, _, _, same, leads⟩ := inductionHypothesis definesInner
    cases same
    exact ⟨extend_set_table false found grows, key, next :: rest, rfl, fun given after leadsOn =>
      ⟨_, Fields.get?_set_self, leads_table_iff.mpr (leads given after leadsOn)⟩⟩
  | case6 => cases defines

/-- A change of the table at a path extends the fields if the change itself does, and the path leads
on to where the changed table leads. -/
theorem extend_of_change? {change : Table Scalar → Option (Table Scalar)} {path : List Text}
    (changes : change? change fields path = some changed)
    (grows : ∀ inner more, change inner = some more → inner.Extend more) :
    fields.Extend changed ∧ ∃ inner more, change inner = some more ∧
      ∀ given key rest, more.Leads given key rest →
        ∀ declared, given.Leads (.table declared changed) (path ++ key :: rest) := by
  fun_induction change? change fields path generalizing changed with
  | case1 fields =>
    exact ⟨grows fields changed changes, fields, changed, changes, fun given key rest leads declared =>
      leads_table_iff.mpr leads⟩
  | case2 fields key path isNew inductionHypothesis =>
    obtain ⟨inner, changesInner, rfl⟩ := Option.map_eq_some_iff.mp changes
    obtain ⟨-, last, more, isChange, leadsInner⟩ := inductionHypothesis changesInner
    exact ⟨extend_set_new isNew _, last, more, isChange, fun given next rest leads declared =>
      leads_table_iff.mpr ⟨_, Fields.get?_set_self, leadsInner given next rest leads false⟩⟩
  | case3 fields key path after inner found inductionHypothesis =>
    obtain ⟨changedInner, changesInner, rfl⟩ := Option.map_eq_some_iff.mp changes
    obtain ⟨growsInner, last, more, isChange, leadsInner⟩ := inductionHypothesis changesInner
    exact ⟨extend_set_table after found growsInner, last, more, isChange,
      fun given next rest leads declared =>
        leads_table_iff.mpr ⟨_, Fields.get?_set_self, leadsInner given next rest leads after⟩⟩
  | case4 fields key path last others found inductionHypothesis =>
    obtain ⟨changedLast, changesInner, rfl⟩ := Option.map_eq_some_iff.mp changes
    obtain ⟨-, inner, more, isChange, -⟩ := inductionHypothesis changesInner
    refine ⟨extend_set_tables found, inner, more, isChange, fun given next rest leads declared =>
      leads_table_iff.mpr ⟨_, Fields.get?_set_self, ?_⟩⟩
    cases path with
    | nil => exact Or.inl ⟨_, rfl⟩
    | cons => exact Or.inl ⟨_, rfl⟩
  | case5 => cases changes

theorem extend_of_declare? (declares : declare? key fields = some changed) :
    fields.Extend changed := by
  rw [declare?] at declares
  split at declares
  case h_1 isNew =>
    cases declares
    exact extend_set_new isNew _
  case h_2 inner found =>
    cases declares
    exact extend_set_table true found (.refl inner)
  case h_3 => cases declares

theorem extend_of_append? (appends : append? key fields = some changed) :
    fields.Extend changed := by
  rw [append?] at appends
  split at appends
  case h_1 isNew =>
    cases appends
    exact extend_set_new isNew _
  case h_2 items found =>
    cases appends
    exact extend_set_tables found
  case h_3 => cases appends

theorem extend_of_open? {double : Bool} (opens : open? double key fields = some changed) :
    fields.Extend changed := by
  cases double
  · exact extend_of_declare? opens
  · exact extend_of_append? opens

end Table

theorem header?_eq_some {draft next : Draft Scalar} {double : Bool} {path : List Text}
    (opens : draft.header? double path = some next) :
    next.current = path ∧ ∃ front key, path = front ++ [key] ∧
      draft.fields.change? (Table.open? double key) front = some next.fields := by
  rw [header?] at opens
  simp only [Option.bind_eq_bind, Option.pure_def, Option.bind_eq_some_iff] at opens
  obtain ⟨key, isLast, fields, changes, same⟩ := opens
  cases same
  obtain ⟨front, rfl⟩ := List.getLast?_eq_some_iff.mp isLast
  exact ⟨rfl, front, key, rfl, by rwa [List.dropLast_concat] at changes⟩

theorem extend_of_header? {draft next : Draft Scalar} {double : Bool} {path : List Text}
    (opens : draft.header? double path = some next) : draft.fields.Extend next.fields := by
  obtain ⟨-, front, key, -, changes⟩ := header?_eq_some opens
  exact (Table.extend_of_change? changes fun _ _ => Table.extend_of_open?).1

end Draft

/-! ### What is written -/

namespace Written

variable {dialect : Dialect}

theorem Value.settled {value : Value dialect} {draft : Draft.Value dialect.Scalar}
    (isDraft : value.draft? = some draft) : draft.Settled := by
  cases value with
  | text =>
    rw [Value.draft?] at isDraft
    cases isDraft
    exact ⟨nofun, nofun⟩
  | scalar =>
    rw [Value.draft?] at isDraft
    cases isDraft
    exact ⟨nofun, nofun⟩
  | array items =>
    rw [Value.draft?] at isDraft
    obtain ⟨values, -, isArray⟩ := Option.bind_eq_some_iff.mp isDraft
    split at isArray
    · cases isArray
      exact ⟨nofun, nofun⟩
    · cases isArray
  | inlineTable pairs =>
    rw [Value.draft?] at isDraft
    obtain ⟨fields, -, rfl⟩ := Option.map_eq_some_iff.mp isDraft
    exact ⟨nofun, nofun⟩

/-- A location stands for a value, to which its path leads from a table. -/
def Location.LeadsFrom (location : Location dialect) (fields : Draft.Table dialect.Scalar) : Prop :=
  ∃ given key rest, location.value.draft? = some given ∧ location.path = key :: rest ∧
    fields.Leads given key rest

theorem Location.LeadsFrom.extend {location : Location dialect}
    {fields changed : Draft.Table dialect.Scalar} (leads : location.LeadsFrom fields)
    (grows : fields.Extend changed) : location.LeadsFrom changed := by
  obtain ⟨given, key, rest, isGiven, isPath, leads⟩ := leads
  exact ⟨given, key, rest, isGiven, isPath, grows given (Value.settled isGiven) key rest leads⟩

mutual

/-- The locations in an inline table lead to what they stand for. -/
theorem Value.leads (value : Value dialect) {draft : Draft.Value dialect.Scalar}
    (isDraft : value.draft? = some draft) {position : Nat} {location : Location dialect}
    (member : location ∈ value.locations Key.path position) :
    ∃ given, location.value.draft? = some given ∧ given.Leads draft location.path := by
  cases value with
  | inlineTable pairs =>
    rw [Value.draft?] at isDraft
    rw [Value.locations] at member
    obtain ⟨fields, defines, rfl⟩ := Option.map_eq_some_iff.mp isDraft
    obtain ⟨given, key, rest, isGiven, isPath, leads⟩ := (pairs.leads defines).2 location member
    exact ⟨given, isGiven, isPath ▸ Draft.Table.leads_inlineTable_iff.mpr leads⟩
  | text | scalar | array =>
    rw [Value.locations] at member
    cases member

theorem Pairs.leads (pairs : Pairs dialect) {fields changed : Draft.Table dialect.Scalar}
    (defines : pairs.define? fields = some changed) {position : Nat} :
    fields.Extend changed ∧
      ∀ location ∈ pairs.locations Key.path position, location.LeadsFrom changed := by
  cases pairs with
  | close =>
    rw [Pairs.define?] at defines
    cases defines
    rw [Pairs.locations]
    exact ⟨.refl _, nofun⟩
  | pair before pair after more =>
    rw [Pairs.define?] at defines
    obtain ⟨middle, definesPair, definesMore⟩ := Option.bind_eq_some_iff.mp defines
    obtain ⟨grows, leads⟩ := pair.leads definesPair
    obtain ⟨growsOn, leadsOn⟩ := more.leads definesMore
    rw [Pairs.locations]
    exact ⟨grows.trans growsOn, List.forall_mem_append.mpr
      ⟨fun location member => (leads location member).extend growsOn, leadsOn⟩⟩

theorem MorePairs.leads (more : MorePairs dialect) {fields changed : Draft.Table dialect.Scalar}
    (defines : more.define? fields = some changed) {position : Nat} :
    fields.Extend changed ∧
      ∀ location ∈ more.locations Key.path position, location.LeadsFrom changed := by
  cases more with
  | close =>
    rw [MorePairs.define?] at defines
    cases defines
    rw [MorePairs.locations]
    exact ⟨.refl _, nofun⟩
  | comma pairs =>
    rw [MorePairs.define?] at defines
    rw [MorePairs.locations]
    exact pairs.leads defines

theorem Pair.leads (pair : Pair dialect) {fields changed : Draft.Table dialect.Scalar}
    (defines : pair.define? fields = some changed) {position : Nat} :
    fields.Extend changed ∧
      ∀ location ∈ pair.locations Key.path position, location.LeadsFrom changed := by
  cases pair with
  | mk key before after value =>
    rw [Pair.define?] at defines
    obtain ⟨draft, isDraft, definesKey⟩ := Option.bind_eq_some_iff.mp defines
    obtain ⟨grows, first, rest, isPath, leads⟩ := Draft.Table.extend_of_define? definesKey
    rw [Pair.locations, isPath]
    refine ⟨grows, List.forall_mem_cons.mpr
      ⟨⟨draft, first, rest, isDraft, rfl, ?_⟩, fun location member => ?_⟩⟩
    · simpa only [List.append_nil] using leads draft [] rfl
    · obtain ⟨inner, isInner, rfl⟩ := List.mem_map.mp member
      obtain ⟨given, isGiven, leadsInner⟩ := value.leads isDraft isInner
      exact ⟨given, first, rest ++ inner.path, isGiven, rfl, leads given inner.path leadsInner⟩

end

/-- A location of a document leads from its fields to what it stands for. -/
def Location.LeadsTo (location : Location dialect) (fields : Draft.Table dialect.Scalar) : Prop :=
  ∃ given, location.value.draft? = some given ∧ given.Leads (.table false fields) location.path

theorem Location.LeadsTo.extend {location : Location dialect}
    {fields changed : Draft.Table dialect.Scalar} (leads : location.LeadsTo fields)
    (grows : fields.Extend changed) : location.LeadsTo changed := by
  obtain ⟨given, isGiven, leads⟩ := leads
  refine ⟨given, isGiven, ?_⟩
  cases isPath : location.path with
  | nil =>
    rw [isPath] at leads
    cases leads
    exact absurd rfl ((Value.settled isGiven).1 false fields)
  | cons key rest =>
    rw [isPath] at leads
    exact Draft.Table.leads_table_iff.mpr
      (grows given (Value.settled isGiven) key rest (Draft.Table.leads_table_iff.mp leads))

/-- A line extends the fields, and its locations lead to what they stand for. -/
theorem Line.leads (line : Line dialect) {draft next : Draft dialect.Scalar}
    (applies : line.next? draft = some next) (position : Nat) :
    draft.fields.Extend next.fields ∧ next.current = line.table Key.path draft.current ∧
      ∀ location ∈ line.locations Key.path draft.current position,
        location.LeadsTo next.fields := by
  obtain ⟨before, item, after, comment⟩ := line
  match item with
  | none =>
    cases applies
    exact ⟨.refl _, rfl, nofun⟩
  | some (.header double _ key _) =>
    exact ⟨Draft.extend_of_header? applies, (Draft.header?_eq_some applies).1, nofun⟩
  | some (.pair own) =>
    obtain ⟨fields, changes, rfl⟩ := Option.map_eq_some_iff.mp applies
    obtain ⟨grows, inner, more, defines, leads⟩ := Draft.Table.extend_of_change? changes
      fun inner more defines => (@Pair.leads _ own _ _ defines 0).1
    refine ⟨grows, rfl, fun location member => ?_⟩
    obtain ⟨location, isLocation, rfl⟩ := List.mem_map.mp member
    obtain ⟨given, key, rest, isGiven, isPath, leadsOn⟩ := (own.leads defines).2 location isLocation
    refine ⟨given, isGiven, ?_⟩
    change given.Leads _ (draft.current ++ location.path)
    rw [isPath]
    exact leads given key rest leadsOn false

/-- The locations of a document lead to what they stand for. -/
theorem Document.leads (document : Document dialect) {draft last : Draft dialect.Scalar}
    (applies : document.next? draft = some last) (position : Nat) :
    draft.fields.Extend last.fields ∧
      ∀ location ∈ document.locations Key.path draft.current position,
        location.LeadsTo last.fields := by
  induction document generalizing draft position with
  | last line =>
    obtain ⟨grows, -, leads⟩ := line.leads applies position
    exact ⟨grows, leads⟩
  | more line newline others inductionHypothesis =>
    obtain ⟨next, appliesLine, appliesOthers⟩ := Option.bind_eq_some_iff.mp applies
    obtain ⟨grows, current, leads⟩ := line.leads appliesLine position
    obtain ⟨growsOn, leadsOn⟩ := inductionHypothesis appliesOthers
      (position + line.source.length + newline.source.length)
    refine ⟨grows.trans growsOn, List.forall_mem_append.mpr
      ⟨fun location member => (leads location member).extend growsOn, ?_⟩⟩
    rwa [← current]

/-- A document has at the path of a location what stands there, if the path goes through no array. -/
theorem Document.at?_of_mem_locations {document : Document dialect}
    {table : Toml.Table dialect.Scalar} (isTable : document.table? = some table)
    {location : Location dialect} (member : location ∈ document.locations Key.path [] 0)
    (outside : ¬(Toml.Value.table table).PassesArray location.path) :
    ∃ given, location.value.draft? = some given ∧
      (Toml.Value.table table).at? location.path = some given.plain := by
  obtain ⟨last, applies, rfl⟩ := Option.map_eq_some_iff.mp isTable
  obtain ⟨given, isGiven, leads⟩ := (document.leads applies 0).2 location member
  refine ⟨given, isGiven, ?_⟩
  have found := Draft.Value.at?_of_leads leads
  rw [Draft.Value.plain] at found
  exact found.resolve_right outside

end Written

end SourceLint.Toml
