/-
This file proves that one more field in a declared table makes no difference to the lines after it:
they are read as before and give the same document with the field in it, as long as they define no
such field themselves. Every line changes the fields of a document under one key and looks at no
other, so the field is never seen on the way.
-/
import SourceLint.Proofs.Toml.Paths

namespace SourceLint.Toml

variable {Scalar : Type}

namespace Fields

variable {Value : Type} {fields changed inner more : Fields Value} {key name : Text}
  {value other : Value}

/-! ### Setting values -/

theorem set_set : set (set fields key value) key other = set fields key other := by
  fun_induction set fields key value with
  | case1 => simp [set]
  | case2 => simp [set]
  | case3 _ _ _ unlike inductionHypothesis => simp [set, unlike, inductionHypothesis]

/-- Values under two keys can be set in either order, if one of the keys is there. -/
theorem set_comm (isThere : (get? fields name).isSome) (unlike : key ≠ name) :
    set (set fields name other) key value = set (set fields key value) name other := by
  induction fields with
  | nil => cases isThere
  | cons field rest inductionHypothesis =>
    obtain ⟨first, old⟩ := field
    by_cases isName : first = name
    · subst isName
      simp [set, unlike.symm]
    · have later : (get? rest name).isSome := by
        simpa [get?, List.lookup_cons, beq_false_of_ne (Ne.symm isName)] using isThere
      by_cases isKey : first = key
      · simp [set, isKey, unlike]
      · simp [set, isName, isKey, inductionHypothesis later]

/-- Fields with one more field under a key of its own. -/
def Added (key : Text) (value : Value) (fields more : Fields Value) : Prop :=
  get? fields key = none ∧
    ∃ front back, fields = front ++ back ∧ more = front ++ (key, value) :: back

namespace Added

theorem get?_self (added : Added key value fields more) : get? more key = some value := by
  obtain ⟨isNew, front, back, rfl, rfl⟩ := added
  rw [get?, List.lookup_append, Option.or_eq_none_iff] at isNew
  rw [get?, List.lookup_append, isNew.1, Option.none_or, List.lookup_cons_self]

theorem get?_of_ne (added : Added key value fields more) (unlike : name ≠ key) :
    get? more name = get? fields name := by
  obtain ⟨-, front, back, rfl, rfl⟩ := added
  rw [get?, get?, List.lookup_append, List.lookup_append, List.lookup_cons, beq_false_of_ne unlike]

/-- Another field is set in the same place. -/
theorem set (added : Added key value fields more) (unlike : name ≠ key) (other : Value) :
    Added key value (set fields name other) (set more name other) := by
  obtain ⟨isNew, front, back, rfl, rfl⟩ := added
  refine ⟨(get?_set_of_ne unlike.symm).trans isNew, ?_⟩
  clear isNew
  induction front with
  | nil => exact ⟨[], _, rfl, by simp [Fields.set, unlike.symm]⟩
  | cons field front inductionHypothesis =>
    by_cases same : field.1 = name
    · exact ⟨(name, other) :: front, back, by simp [Fields.set, same],
        by simp [Fields.set, same]⟩
    · obtain ⟨before, after, splits, splitsMore⟩ := inductionHypothesis
      exact ⟨field :: before, after, by simp [Fields.set, same, splits],
        by simp [Fields.set, same, splitsMore]⟩

end Added

/-- A field that is not there is set at the end. -/
theorem added_set (isNew : get? fields key = none) : Added key value fields (set fields key value) := by
  refine ⟨isNew, fields, [], (List.append_nil _).symm, ?_⟩
  fun_induction set fields key value with
  | case1 => rfl
  | case2 => simp [get?] at isNew
  | case3 other old rest unlike inductionHypothesis =>
    rw [get?, List.lookup_cons, beq_false_of_ne (Ne.symm unlike)] at isNew
    exact congrArg _ (inductionHypothesis isNew)

end Fields

namespace Draft

/-- What later lines can make of a value: a table keeps its keys and its declaration, and tables in
double brackets stay such. Everything else stays as it is. -/
inductive Value.Becomes : Value Scalar → Value Scalar → Prop
  | refl (value : Value Scalar) : Becomes value value
  | table {declared after : Bool} {fields changed : Table Scalar}
      (stays : declared = true → after = true)
      (keeps : ∀ key, (Fields.get? fields key).isSome → (Fields.get? changed key).isSome) :
      Becomes (.table declared fields) (.table after changed)
  | tables (items changed : List (Table Scalar)) : Becomes (.tables items) (.tables changed)

theorem Value.Becomes.trans {first second third : Value Scalar} (early : first.Becomes second)
    (late : second.Becomes third) : first.Becomes third := by
  cases early with
  | refl => exact late
  | table stays keeps =>
    cases late with
    | refl => exact .table stays keeps
    | table staysLate keepsLate =>
      exact .table (staysLate ∘ stays) fun key isKey => keepsLate key (keeps key isKey)
  | tables =>
    cases late with
    | refl => exact .tables _ _
    | tables => exact .tables _ _

/-- A table that a header has opened, in single or double brackets. -/
def Value.IsHeaded : Value Scalar → Prop
  | .table declared _ => declared = true
  | .tables _ => True
  | _ => False

/-- What has become a table without double brackets has been one since its header. -/
theorem Value.Becomes.exists_table {old : Value Scalar} {declared : Bool} {fields : Table Scalar}
    (becomes : old.Becomes (.table declared fields)) (headed : old.IsHeaded) :
    ∃ inner, old = .table true inner := by
  cases becomes with
  | refl => exact ⟨fields, congrArg (Value.table · fields) headed⟩
  | table _ _ => exact ⟨_, congrArg (Value.table · _) headed⟩

namespace Table

variable {fields changed inner more : Table Scalar} {key name : Text} {value other : Value Scalar}

/-! ### Operations on fields -/

/-- An operation puts a value under one key, which depends on what stands there alone. -/
def Acts (operation : Table Scalar → Option (Table Scalar)) (key : Text) : Prop :=
  ∀ fields changed, operation fields = some changed → ∃ new, changed = Fields.set fields key new ∧
    (∀ old, Fields.get? fields key = some old → old.Becomes new) ∧
    ∀ others, Fields.get? others key = Fields.get? fields key →
      operation others = some (Fields.set others key new)

namespace Acts

variable {operation : Table Scalar → Option (Table Scalar)} (acts : Acts operation key)
  (operates : operation fields = some changed)

include acts operates

theorem becomes {old : Value Scalar} (found : Fields.get? fields name = some old) :
    ∃ new, Fields.get? changed name = some new ∧ old.Becomes new := by
  obtain ⟨new, rfl, becomes, -⟩ := acts fields changed operates
  by_cases same : name = key
  · subst same
    exact ⟨new, Fields.get?_set_self, becomes old found⟩
  · exact ⟨old, (Fields.get?_set_of_ne same).trans found, .refl old⟩

theorem keeps (isKey : (Fields.get? fields name).isSome) : (Fields.get? changed name).isSome := by
  obtain ⟨old, found⟩ := Option.isSome_iff_exists.mp isKey
  obtain ⟨new, foundNew, -⟩ := acts.becomes operates found
  rw [foundNew]
  rfl

/-- A further field is not seen if the operation does not Fields.set such a field itself. -/
theorem exists_added (isNew : Fields.get? changed name = none)
    (added : Fields.Added name value fields more) :
    ∃ moreChanged, operation more = some moreChanged ∧
      Fields.Added name value changed moreChanged := by
  obtain ⟨new, rfl, -, again⟩ := acts fields changed operates
  have unlike : key ≠ name := by
    rintro rfl
    rw [Fields.get?_set_self] at isNew
    cases isNew
  exact ⟨_, again more (added.get?_of_ne unlike), added.set unlike new⟩

/-- What stands under another key makes no difference. -/
theorem set_of_ne (unlike : name ≠ key) (isThere : (Fields.get? fields name).isSome)
    (value : Value Scalar) :
    operation (Fields.set fields name value) = some (Fields.set changed name value) ∧
      Fields.get? changed name = Fields.get? fields name := by
  obtain ⟨new, rfl, -, again⟩ := acts fields changed operates
  refine ⟨?_, Fields.get?_set_of_ne unlike⟩
  rw [again _ (Fields.get?_set_of_ne unlike.symm), Fields.set_comm isThere unlike.symm]

end Acts

/-- An operation fails on a table that a header has declared. -/
def Spares (operation : Table Scalar → Option (Table Scalar)) (key : Text) : Prop :=
  ∀ fields inner, Fields.get? fields key = some (.table true inner) → operation fields = none

theorem acts_define? (value : Value Scalar) (key : Text) (rest : List Text) :
    Acts (fun fields => define? value fields (key :: rest)) key := by
  induction rest generalizing key with
  | nil =>
    intro fields changed defines
    simp only [define?] at defines ⊢
    split at defines
    case isTrue => cases defines
    case isFalse isThere =>
      cases defines
      refine ⟨value, rfl, fun old found => absurd (found ▸ rfl) isThere, fun others same => ?_⟩
      rw [same, if_neg isThere]
  | cons next rest inductionHypothesis =>
    intro fields changed defines
    simp only [define?] at defines ⊢
    split at defines
    case h_1 isNew =>
      obtain ⟨inner, definesInner, rfl⟩ := Option.map_eq_some_iff.mp defines
      refine ⟨.table false inner, rfl, fun old found => ?_, fun others same => ?_⟩
      · rw [isNew] at found
        cases found
      · rw [same, isNew]
        exact congrArg (Option.map _) definesInner
    case h_2 before found =>
      obtain ⟨inner, definesInner, rfl⟩ := Option.map_eq_some_iff.mp defines
      refine ⟨.table false inner, rfl, fun old isOld => ?_, fun others same => ?_⟩
      · cases found.symm.trans isOld
        exact .table id fun name => (inductionHypothesis next).keeps definesInner
      · rw [same, found]
        exact congrArg (Option.map _) definesInner
    case h_3 => cases defines

theorem spares_define? (value : Value Scalar) (key : Text) (rest : List Text) :
    Spares (fun fields => define? value fields (key :: rest)) key := by
  intro fields inner found
  cases rest with
  | nil => simp [define?, found]
  | cons next rest => simp [define?, found]

/-- The definition of a value acts on the first part of its key. -/
theorem exists_acts_define? (value : Value Scalar) (key : List Text) :
    ∃ first, Acts (fun fields => define? value fields key) first ∧
      Spares (fun fields => define? value fields key) first := by
  cases key with
  | nil => exact ⟨[], fun _ _ => nofun, fun _ _ _ => rfl⟩
  | cons first rest => exact ⟨first, acts_define? value first rest, spares_define? value first rest⟩

theorem acts_declare? (key : Text) : Acts (fun fields : Table Scalar => declare? key fields) key := by
  intro fields changed declares
  simp only [declare?] at declares ⊢
  split at declares
  case h_1 isNew =>
    cases declares
    refine ⟨.table true [], rfl, fun old found => ?_, fun others same => by rw [same, isNew]⟩
    rw [isNew] at found
    cases found
  case h_2 inner found =>
    cases declares
    refine ⟨.table true inner, rfl, fun old isOld => ?_, fun others same => by rw [same, found]⟩
    cases found.symm.trans isOld
    exact .table (fun _ => rfl) fun _ => id
  case h_3 => cases declares

theorem acts_append? (key : Text) : Acts (fun fields : Table Scalar => append? key fields) key := by
  intro fields changed appends
  simp only [append?] at appends ⊢
  split at appends
  case h_1 isNew =>
    cases appends
    refine ⟨.tables [[]], rfl, fun old found => ?_, fun others same => by rw [same, isNew]⟩
    rw [isNew] at found
    cases found
  case h_2 items found =>
    cases appends
    refine ⟨.tables ([] :: items), rfl, fun old isOld => ?_, fun others same => by rw [same, found]⟩
    cases found.symm.trans isOld
    exact .tables _ _
  case h_3 => cases appends

theorem acts_open? (double : Bool) (key : Text) :
    Acts (fun fields : Table Scalar => open? double key fields) key ∧
      Spares (fun fields : Table Scalar => open? double key fields) key := by
  cases double with
  | false => exact ⟨acts_declare? key, fun fields inner found => by simp [open?, declare?, found]⟩
  | true => exact ⟨acts_append? key, fun fields inner found => by simp [open?, append?, found]⟩

/-- So does an operation on the table at a path: on the first key of the path. -/
theorem acts_change? {operation : Table Scalar → Option (Table Scalar)} (acts : Acts operation key)
    (path : List Text) :
    Acts (fun fields => change? operation fields path) ((path ++ [key]).head (by simp)) := by
  induction path with
  | nil => exact acts
  | cons first rest inductionHypothesis =>
    intro fields changed changes
    simp only [change?, List.cons_append, List.head_cons] at changes ⊢
    split at changes
    case h_1 isNew =>
      obtain ⟨inner, changesInner, rfl⟩ := Option.map_eq_some_iff.mp changes
      refine ⟨.table false inner, rfl, fun old found => ?_, fun others same => ?_⟩
      · rw [isNew] at found
        cases found
      · rw [same, isNew]
        exact congrArg (Option.map _) changesInner
    case h_2 declared before found =>
      obtain ⟨inner, changesInner, rfl⟩ := Option.map_eq_some_iff.mp changes
      refine ⟨.table declared inner, rfl, fun old isOld => ?_, fun others same => ?_⟩
      · cases found.symm.trans isOld
        exact .table id fun name => inductionHypothesis.keeps changesInner
      · rw [same, found]
        exact congrArg (Option.map _) changesInner
    case h_3 last items found =>
      obtain ⟨inner, changesInner, rfl⟩ := Option.map_eq_some_iff.mp changes
      refine ⟨.tables (inner :: items), rfl, fun old isOld => ?_, fun others same => ?_⟩
      · cases found.symm.trans isOld
        exact .tables _ _
      · rw [same, found]
        exact congrArg (Option.map _) changesInner
    case h_4 => cases changes

/-- A table comes to have other fields: it keeps its keys, and with a further field, which it does
not come to have by itself, the same is done again. -/
structure Carries (inner after : Table Scalar) (again : Table Scalar → Table Scalar → Prop) : Prop where
  keeps : ∀ field, (Fields.get? inner field).isSome → (Fields.get? after field).isSome
  adds : ∀ field value more, Fields.get? after field = none → Fields.Added field value inner more →
    ∃ moreAfter, Fields.Added field value after moreAfter ∧ again more moreAfter

theorem Carries.refl {again : Table Scalar → Table Scalar → Prop} (same : ∀ more, again more more) :
    Carries inner inner again :=
  ⟨fun _ => id, fun _ _ more _ added => ⟨more, added, same more⟩⟩

theorem Carries.imp {after : Table Scalar} {again other : Table Scalar → Table Scalar → Prop}
    (carries : Carries inner after again) (implies : ∀ more moreAfter, again more moreAfter →
      other more moreAfter) : Carries inner after other :=
  ⟨carries.keeps, fun field value more isNew added =>
    have ⟨moreAfter, addedAfter, isAgain⟩ := carries.adds field value more isNew added
    ⟨moreAfter, addedAfter, implies _ _ isAgain⟩⟩

/-- What the table does not come to have it did not have. -/
theorem Carries.get?_eq_none {after : Table Scalar} {again : Table Scalar → Table Scalar → Prop}
    (carries : Carries inner after again) {field : Text} (isNew : Fields.get? after field = none) :
    Fields.get? inner field = none := by
  by_contra isThere
  have kept := carries.keeps field (Option.isSome_iff_ne_none.mpr isThere)
  rw [isNew] at kept
  cases kept

theorem Carries.trans {middle after : Table Scalar}
    {early late again : Table Scalar → Table Scalar → Prop}
    (first : Carries inner middle early) (second : Carries middle after late)
    (both : ∀ more moreMiddle moreAfter, early more moreMiddle → late moreMiddle moreAfter →
      again more moreAfter) : Carries inner after again := by
  refine ⟨fun field isField => second.keeps field (first.keeps field isField),
    fun field value more isNew added => ?_⟩
  obtain ⟨moreMiddle, addedMiddle, isEarly⟩ :=
    first.adds field value more (second.get?_eq_none isNew) added
  obtain ⟨moreAfter, addedAfter, isLate⟩ := second.adds field value moreMiddle isNew addedMiddle
  exact ⟨moreAfter, addedAfter, both _ _ _ isEarly isLate⟩

/-- A change somewhere in a document leaves a declared table declared, and it is the same change if
the table has a further field. -/
theorem change?_carries {operation : Table Scalar → Option (Table Scalar)} (acts : Acts operation key)
    (spares : Spares operation key) {path : List Text}
    (found : Fields.get? fields name = some (.table true inner))
    (changes : change? operation fields path = some changed) :
    ∃ after, Fields.get? changed name = some (.table true after) ∧
      Carries inner after fun more moreAfter =>
        change? operation (Fields.set fields name (.table true more)) path =
          some (Fields.set changed name (.table true moreAfter)) := by
  have elsewhere (unlike : name ≠ (path ++ [key]).head (by simp)) :
      ∃ after, Fields.get? changed name = some (.table true after) ∧
        Carries inner after fun more moreAfter =>
          change? operation (Fields.set fields name (.table true more)) path =
            some (Fields.set changed name (.table true moreAfter)) := by
    have kept := (acts_change? acts path).set_of_ne changes unlike (by rw [found]; rfl)
    exact ⟨inner, (kept (.table true inner)).2.trans found, .refl fun more => (kept (.table true more)).1⟩
  cases path with
  | nil =>
    refine elsewhere ?_
    rintro rfl
    cases (spares fields inner found).symm.trans changes
  | cons first rest =>
    by_cases same : name = first
    · subst same
      rw [change?, found] at changes
      obtain ⟨after, changesInner, rfl⟩ := Option.map_eq_some_iff.mp changes
      have actsInner := acts_change? acts rest
      refine ⟨after, Fields.get?_set_self, fun field => actsInner.keeps changesInner,
        fun field value more isNew added => ?_⟩
      obtain ⟨moreAfter, changesMore, addedAfter⟩ := actsInner.exists_added changesInner isNew added
      refine ⟨moreAfter, addedAfter, ?_⟩
      rw [change?, Fields.get?_set_self, Fields.set_set]
      simp only [changesMore, Option.map_some, Fields.set_set]
    · exact elsewhere same

end Table

/-! ### Drafts -/

variable {draft next : Draft Scalar} {name : Text}

/-- A header opens the table that it names. -/
theorem exists_isHeaded_of_header? {double : Bool}
    (opens : draft.header? double [name] = some next) :
    ∃ value, next.fields.get? name = some value ∧ value.IsHeaded ∧
      (double = false → ∃ inner, value = .table true inner) := by
  obtain ⟨-, front, key, isPath, changes⟩ := header?_eq_some opens
  obtain ⟨rfl, isKey⟩ := (List.append_eq_singleton_iff.mp isPath.symm).resolve_right (by simp)
  cases isKey
  change Table.open? double name draft.fields = some next.fields at changes
  cases double with
  | true =>
    change Table.append? name draft.fields = _ at changes
    rw [Table.append?] at changes
    split at changes
    case h_3 => cases changes
    all_goals
      rw [← Option.some.inj changes]
      exact ⟨_, Fields.get?_set_self, trivial, fun isSingle => absurd isSingle Bool.noConfusion⟩
  | false =>
    change Table.declare? name draft.fields = _ at changes
    rw [Table.declare?] at changes
    split at changes
    case h_3 => cases changes
    all_goals
      rw [← Option.some.inj changes]
      exact ⟨_, Fields.get?_set_self, rfl, fun _ => ⟨_, rfl⟩⟩

theorem header?_concat (draft : Draft Scalar) (double : Bool) (front : List Text) (key : Text) :
    draft.header? double (front ++ [key]) =
      (draft.fields.change? (Table.open? double key) front).map fun fields =>
        ⟨fields, front ++ [key]⟩ := by
  rw [header?, List.getLast?_concat, List.dropLast_concat]
  simp only [Option.bind_eq_bind, Option.bind_some, Option.pure_def, Option.map_eq_bind,
    Function.comp_def]

end Draft

/-! ### Lines -/

namespace Written

variable {dialect : Dialect} {draft next : Draft dialect.Scalar} {name : Text}

/-- A pair acts on the first part of its key. -/
theorem Pair.exists_acts (pair : Pair dialect) : ∃ key,
    Draft.Table.Acts pair.define? key ∧ Draft.Table.Spares pair.define? key := by
  cases pair with
  | mk key before after value =>
    cases isDraft : value.draft? with
    | none =>
      have fails : Pair.define? (.mk key before after value) = fun _ => none := by
        funext fields
        rw [Pair.define?, isDraft]
        rfl
      rw [fails]
      exact ⟨[], fun _ _ => nofun, fun _ _ _ => rfl⟩
    | some draft =>
      have defines : Pair.define? (.mk key before after value) =
          fun fields => Draft.Table.define? draft fields key.path := by
        funext fields
        rw [Pair.define?, isDraft]
        rfl
      rw [defines]
      exact Draft.Table.exists_acts_define? draft key.path

/-- A line with a header or a pair changes the fields of the draft at some path. -/
theorem Line.exists_change (line : Line dialect) :
    (∀ draft, line.next? draft = some draft) ∨
      ∃ operation key, Draft.Table.Acts operation key ∧ Draft.Table.Spares operation key ∧
        ∀ current, ∃ path last, ∀ fields, line.next? ⟨fields, current⟩ =
          (Draft.Table.change? operation fields path).map fun changed => ⟨changed, last⟩ := by
  obtain ⟨before, item, after, comment⟩ := line
  match item with
  | none => exact Or.inl fun _ => rfl
  | some (.pair own) =>
    obtain ⟨key, acts, spares⟩ := own.exists_acts
    exact Or.inr ⟨_, key, acts, spares, fun current => ⟨current, current, fun fields => rfl⟩⟩
  | some (.header double _ key _) =>
    refine Or.inr ?_
    obtain ⟨front, last, isPath⟩ : ∃ front last, key.path = front ++ [last] := by
      cases key with
      | last part => exact ⟨[], part.name, rfl⟩
      | dotted part _ _ others =>
        exact ⟨_, _, (List.dropLast_concat_getLast (List.cons_ne_nil part.name others.path)).symm⟩
    obtain ⟨acts, spares⟩ := @Draft.Table.acts_open? dialect.Scalar double last
    refine ⟨_, last, acts, spares, fun current => ⟨front, front ++ [last], fun fields => ?_⟩⟩
    change Draft.header? ⟨fields, current⟩ double key.path = _
    rw [isPath]
    exact Draft.header?_concat _ double front last

theorem Line.becomes {line : Line dialect} (applies : line.next? draft = some next)
    {old : Draft.Value dialect.Scalar} (found : draft.fields.get? name = some old) :
    ∃ new, next.fields.get? name = some new ∧ old.Becomes new := by
  obtain same | ⟨operation, key, acts, -, changes⟩ := line.exists_change
  · rw [same] at applies
    cases applies
    exact ⟨old, found, .refl old⟩
  · obtain ⟨path, last, changes⟩ := changes draft.current
    rw [changes] at applies
    obtain ⟨changed, isChanged, rfl⟩ := Option.map_eq_some_iff.mp applies
    exact (Draft.Table.acts_change? acts path).becomes isChanged found

/-- A field of a draft is at later lines what they can make of it. -/
theorem Document.becomes {document : Document dialect} {last : Draft dialect.Scalar}
    (applies : document.next? draft = some last) {old : Draft.Value dialect.Scalar}
    (found : draft.fields.get? name = some old) :
    ∃ new, last.fields.get? name = some new ∧ old.Becomes new := by
  induction document generalizing draft old with
  | last line => exact Line.becomes applies found
  | more line newline others inductionHypothesis =>
    obtain ⟨next, appliesLine, appliesOthers⟩ := Option.bind_eq_some_iff.mp applies
    obtain ⟨middle, foundNext, early⟩ := Line.becomes appliesLine found
    obtain ⟨new, foundLast, late⟩ := inductionHypothesis appliesOthers foundNext
    exact ⟨new, foundLast, early.trans late⟩

/-- The draft with other fields in a declared table. -/
def withTable (draft : Draft dialect.Scalar) (name : Text) (fields : Draft.Table dialect.Scalar) :
    Draft dialect.Scalar :=
  { draft with fields := draft.fields.set name (.table true fields) }

/-- With one more field in a declared table a line does the same, with that field in the table, if it
gives no such field itself. -/
theorem Line.carries {line : Line dialect} (applies : line.next? draft = some next)
    {inner : Draft.Table dialect.Scalar} (found : draft.fields.get? name = some (.table true inner)) :
    ∃ after, next.fields.get? name = some (.table true after) ∧
      Draft.Table.Carries inner after fun more moreAfter =>
        line.next? (withTable draft name more) = some (withTable next name moreAfter) := by
  obtain same | ⟨operation, key, acts, spares, changes⟩ := line.exists_change
  · rw [same] at applies
    cases applies
    exact ⟨inner, found, .refl fun more => same _⟩
  · obtain ⟨path, last, changes⟩ := changes draft.current
    rw [changes] at applies
    obtain ⟨changed, isChanged, rfl⟩ := Option.map_eq_some_iff.mp applies
    obtain ⟨after, foundAfter, carries⟩ := Draft.Table.change?_carries acts spares found isChanged
    refine ⟨after, foundAfter, carries.imp fun more moreAfter again => ?_⟩
    rw [withTable, changes, again]
    rfl

/-- So do the lines of a document. -/
theorem Document.carries {document : Document dialect} {last : Draft dialect.Scalar}
    (applies : document.next? draft = some last) {inner : Draft.Table dialect.Scalar}
    (found : draft.fields.get? name = some (.table true inner)) :
    ∃ after, last.fields.get? name = some (.table true after) ∧
      Draft.Table.Carries inner after fun more moreAfter =>
        document.next? (withTable draft name more) = some (withTable last name moreAfter) := by
  induction document generalizing draft inner with
  | last line => exact Line.carries applies found
  | more line newline others inductionHypothesis =>
    obtain ⟨next, appliesLine, appliesOthers⟩ := Option.bind_eq_some_iff.mp applies
    obtain ⟨middle, foundNext, early⟩ := Line.carries appliesLine found
    obtain ⟨after, foundLast, late⟩ := inductionHypothesis appliesOthers foundNext
    refine ⟨after, foundLast, early.trans late fun _ _ _ appliesAgain othersAgain => ?_⟩
    rw [Document.next?, appliesAgain]
    exact othersAgain

end Written

end SourceLint.Toml
