/-
This file says where the values of a written document stand, and for which paths. A pair gives its
value to the path of its key, behind the path of the table that it is in, and so do the pairs of an
inline table; the items of an array have no paths. The layout of a text says the same in its own way:
its entries, with those of inline tables, come to a list of places with their paths, and to look up a
path is to find the first of them.
-/
import SourceLint.Proofs.Toml.Grammar

namespace SourceLint.Toml

variable {dialect : Dialect}

/-! ### Where values are written -/

namespace Written

/-- A value that is given to a path, and the position where it begins. -/
structure Location (dialect : Dialect) where
  path : List Text
  position : Nat
  value : Value dialect

namespace Location

/-- The place of a value. -/
def span (location : Location dialect) : Span :=
  ⟨location.position, location.position + location.value.source.length⟩

/-- The path with the place of its value. -/
def place (location : Location dialect) : List Text × Span := (location.path, location.span)

/-- The location with its path behind that of a table. -/
def under (table : List Text) (location : Location dialect) : Location dialect :=
  { location with path := table ++ location.path }

end Location

section

-- what a key is read as
variable (read : Key dialect → List Text)

mutual

/-- The values in an inline table that begins at a position; other values have none. -/
def Value.locations (position : Nat) : Value dialect → List (Location dialect)
  | .inlineTable pairs => pairs.locations (position + 1)
  | .text _ _ _ => []
  | .scalar _ _ _ => []
  | .array _ => []

/-- The values that the pairs of an inline table give to paths. -/
def Pairs.locations (position : Nat) : Pairs dialect → List (Location dialect)
  | .close _ => []
  | .pair before pair after more =>
    pair.locations (position + before.source.length) ++
      more.locations
        (position + before.source.length + pair.source.length + after.source.length)

/-- The values that the further pairs of an inline table give to paths. -/
def MorePairs.locations (position : Nat) : MorePairs dialect → List (Location dialect)
  | .close => []
  | .comma pairs => pairs.locations (position + 1)

/-- The values that a pair gives to paths: its own, and those in it. -/
def Pair.locations (position : Nat) : Pair dialect → List (Location dialect)
  | .mk key before after value =>
    let start := position + key.source.length + before.source.length + 1 + after.source.length
    ⟨read key, start, value⟩ :: (value.locations start).map (.under (read key))

end

/-- The key of the header that a line is, with whether its brackets are double. -/
def Line.header? (line : Line dialect) : Option (Bool × Key dialect) :=
  match line.item with
  | some (.header double _ key _) => some (double, key)
  | _ => none

/-- The headers of a document. -/
def Document.headers : Document dialect → List (Bool × Key dialect)
  | last line => line.header?.toList
  | more line _ others => line.header?.toList ++ others.headers

/-- The path of the table that is open behind a line. -/
def Line.table (line : Line dialect) (table : List Text) : List Text :=
  match line.item with
  | some (.header _ _ key _) => read key
  | _ => table

/-- The values that a line gives to paths, in a table. -/
def Line.locations (line : Line dialect) (table : List Text) (position : Nat) :
    List (Location dialect) :=
  match line.item with
  | some (.pair own) =>
    (own.locations read (position + line.before.source.length)).map (.under table)
  | _ => []

/-- The values that the lines of a document give to paths. -/
def Document.locations : Document dialect → List Text → Nat → List (Location dialect)
  | last line, table, position => line.locations read table position
  | more line newline others, table, position =>
    line.locations read table position ++
      others.locations (line.table read table)
        (position + line.source.length + newline.source.length)

end

/-! ### Keys without the numbers of characters -/

/-- A part of a key has no escape that gives the number of a character. -/
def KeyPart.IsPlain : KeyPart dialect → Prop
  | bare _ _ _ => True
  | quoted quote rest name _ _ => Body dialect quote false false rest name

/-- A key has no escape that gives the number of a character. -/
def Key.IsPlain : Key dialect → Prop
  | last part => part.IsPlain
  | dotted part _ _ others => part.IsPlain ∧ others.IsPlain

mutual

/-- No key of an inline table has an escape that gives the number of a character. -/
def Value.KeysArePlain : Value dialect → Prop
  | .inlineTable pairs => pairs.KeysArePlain
  | .text _ _ _ => True
  | .scalar _ _ _ => True
  | .array _ => True

/-- No key of the pairs has an escape that gives the number of a character. -/
def Pairs.KeysArePlain : Pairs dialect → Prop
  | .close _ => True
  | .pair _ pair _ more => pair.KeysArePlain ∧ more.KeysArePlain

/-- No key of the further pairs has an escape that gives the number of a character. -/
def MorePairs.KeysArePlain : MorePairs dialect → Prop
  | .close => True
  | .comma pairs => pairs.KeysArePlain

/-- No key of a pair has an escape that gives the number of a character. -/
def Pair.KeysArePlain : Pair dialect → Prop
  | .mk key _ _ value => key.IsPlain ∧ value.KeysArePlain

end

/-- No key of a line has an escape that gives the number of a character. -/
def Line.KeysArePlain (line : Line dialect) : Prop :=
  match line.item with
  | none => True
  | some (.header _ _ key _) => key.IsPlain
  | some (.pair own) => own.KeysArePlain

/-- No key that a path can go through has an escape that gives the number of a character. -/
def Document.KeysArePlain : Document dialect → Prop
  | last line => line.KeysArePlain
  | more line _ others => line.KeysArePlain ∧ others.KeysArePlain

/-- Two readings agree on the keys without the numbers of characters. -/
def AgreeOnPlain (read other : Key dialect → List Text) : Prop :=
  ∀ key : Key dialect, key.IsPlain → read key = other key

section

variable {read other : Key dialect → List Text}

mutual

theorem Value.locations_congr (agree : AgreeOnPlain read other) (value : Value dialect)
    (plain : value.KeysArePlain) (position : Nat) :
    value.locations read position = value.locations other position := by
  cases value with
  | inlineTable pairs =>
    rw [Value.locations, Value.locations]
    exact pairs.locations_congr agree plain _
  | text | scalar | array => rw [Value.locations, Value.locations]

theorem Pairs.locations_congr (agree : AgreeOnPlain read other) (pairs : Pairs dialect)
    (plain : pairs.KeysArePlain) (position : Nat) :
    pairs.locations read position = pairs.locations other position := by
  cases pairs with
  | close => rw [Pairs.locations, Pairs.locations]
  | pair before pair after more =>
    rw [Pairs.locations, Pairs.locations, pair.locations_congr agree plain.1,
      more.locations_congr agree plain.2]

theorem MorePairs.locations_congr (agree : AgreeOnPlain read other) (more : MorePairs dialect)
    (plain : more.KeysArePlain) (position : Nat) :
    more.locations read position = more.locations other position := by
  cases more with
  | close => rw [MorePairs.locations, MorePairs.locations]
  | comma pairs =>
    rw [MorePairs.locations, MorePairs.locations]
    exact pairs.locations_congr agree plain _

theorem Pair.locations_congr (agree : AgreeOnPlain read other) (pair : Pair dialect)
    (plain : pair.KeysArePlain) (position : Nat) :
    pair.locations read position = pair.locations other position := by
  cases pair with
  | mk key before after value =>
    rw [Pair.locations, Pair.locations, agree key plain.1, value.locations_congr agree plain.2]

end

/-- Two readings of keys that agree on those of a document give the same locations. -/
theorem Document.locations_congr (agree : AgreeOnPlain read other) (document : Document dialect)
    (plain : document.KeysArePlain) (table : List Text) (position : Nat) :
    document.locations read table position = document.locations other table position := by
  have lines (line : Line dialect) (plain : line.KeysArePlain) (table : List Text) (position : Nat) :
      line.locations read table position = line.locations other table position ∧
        line.table read table = line.table other table := by
    obtain ⟨before, item, after, comment⟩ := line
    cases item with
    | none => exact ⟨rfl, rfl⟩
    | some item =>
      cases item with
      | header double before key after => exact ⟨rfl, agree key plain⟩
      | pair own =>
        exact ⟨congrArg (List.map _) (own.locations_congr agree plain _), rfl⟩
  induction document generalizing table position with
  | last line => exact (lines line plain table position).1
  | more line newline others inductionHypothesis =>
    obtain ⟨same, sameTable⟩ := lines line plain.1 table position
    rw [locations, locations, same, sameTable, inductionHypothesis plain.2]

end

end Written

/-! ### Looking up -/

mutual

/-- The places in an entry with their paths. -/
def LayoutEntry.places : LayoutEntry → List (List Text × Span)
  | .mk path valueSpan inline =>
    (path, valueSpan) :: (allPlaces inline).map fun place => (path ++ place.1, place.2)

/-- The places in entries with their paths. -/
def allPlaces : List LayoutEntry → List (List Text × Span)
  | [] => []
  | entry :: rest => entry.places ++ allPlaces rest

end

theorem LayoutEntry.places_under (table : List Text) (entry : LayoutEntry) :
    (LayoutEntry.mk (table ++ entry.path) entry.valueSpan entry.inline).places =
      entry.places.map fun place => (table ++ place.1, place.2) := by
  obtain ⟨path, span, inline⟩ := entry
  simp only [LayoutEntry.places, LayoutEntry.path, LayoutEntry.valueSpan, LayoutEntry.inline,
    List.map_cons, List.map_map]
  congr 1
  refine List.map_congr_left fun place _ => ?_
  simp only [Function.comp_apply, List.append_assoc]

theorem allPlaces_append (entries others : List LayoutEntry) :
    allPlaces (entries ++ others) = allPlaces entries ++ allPlaces others := by
  induction entries with
  | nil => rw [allPlaces, List.nil_append, List.nil_append]
  | cons entry entries inductionHypothesis =>
    rw [List.cons_append, allPlaces, allPlaces, inductionHypothesis, List.append_assoc]

/-- Behind a prefix a path is looked up as the rest of it. -/
theorem lookup_map_append (front key : List Text) (places : List (List Text × Span)) :
    (places.map fun place => (front ++ place.1, place.2)).lookup (front ++ key) =
      places.lookup key := by
  induction places with
  | nil => rfl
  | cons place places inductionHypothesis =>
    obtain ⟨path, span⟩ := place
    have same : (front ++ key == front ++ path) = (key == path) := by
      rw [Bool.eq_iff_iff, beq_iff_eq, beq_iff_eq, List.append_cancel_left_eq]
    simp only [List.map_cons, List.lookup_cons, same, inductionHypothesis]

theorem lookup_map_append_eq_none {front key : List Text} (unlike : ¬front <+: key)
    (places : List (List Text × Span)) :
    (places.map fun place => (front ++ place.1, place.2)).lookup key = none := by
  induction places with
  | nil => rfl
  | cons place places inductionHypothesis =>
    obtain ⟨path, span⟩ := place
    have notEqual : (key == front ++ path) = false :=
      beq_false_of_ne fun same => unlike (same ▸ List.prefix_append _ _)
    simp only [List.map_cons, List.lookup_cons, notEqual, inductionHypothesis]

mutual

theorem LayoutEntry.find?_eq_lookup (entry : LayoutEntry) (key : List Text) :
    entry.find? key = entry.places.lookup key := by
  cases entry with
  | mk path valueSpan inline =>
    rw [LayoutEntry.find?, LayoutEntry.places, List.lookup_cons]
    by_cases same : path = key
    · rw [if_pos same, same, beq_self_eq_true]
    · rw [if_neg same, beq_false_of_ne (Ne.symm same)]
      dsimp only
      by_cases isPrefix : path <+: key
      · obtain ⟨rest, rfl⟩ := isPrefix
        have longer : rest ≠ [] := fun isNil => same (by rw [isNil, List.append_nil])
        have inside : (path.length < (path ++ rest).length &&
            path = (path ++ rest).take path.length) = true := by
          simpa [List.length_pos_iff] using longer
        rw [if_pos inside, List.drop_left, findInEntries?_eq_lookup inline rest, lookup_map_append]
      · rw [lookup_map_append_eq_none isPrefix, if_neg]
        intro inside
        have isTake := of_decide_eq_true (Bool.and_eq_true_iff.mp inside).2
        exact isPrefix (isTake ▸ List.take_prefix _ _)

/-- The place of a path is the first that stands for it. -/
theorem findInEntries?_eq_lookup (entries : List LayoutEntry) (key : List Text) :
    findInEntries? key entries = (allPlaces entries).lookup key := by
  cases entries with
  | nil => rw [findInEntries?, allPlaces, List.lookup_nil]
  | cons entry rest =>
    rw [findInEntries?, allPlaces, List.lookup_append, entry.find?_eq_lookup key,
      findInEntries?_eq_lookup rest key]
    cases entry.places.lookup key <;> rfl

end

end SourceLint.Toml
