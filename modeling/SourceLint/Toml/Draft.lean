/-
What the lines of a TOML document have defined so far, and the rules on defining more. A table
remembers whether a header has declared it: a header may complete a table that only came up in longer
paths, and dotted keys may complete one that came up in dotted keys, but nothing is defined twice, and
what stands in braces or brackets is complete as it is written.
-/
import SourceLint.Toml.Value

namespace SourceLint.Toml.Draft

/-- A value of a document that is being read. -/
inductive Value (Scalar : Type) where
  | text (content : Text)
  | scalar (value : Scalar)
  | array (items : List (Value Scalar))
  | inlineTable (fields : List (Text × Value Scalar))
  | table (declared : Bool) (fields : List (Text × Value Scalar))
  /-- The tables that headers in double brackets have opened, the last first. -/
  | tables (items : List (List (Text × Value Scalar)))

/-- The values in a table that is being read. -/
abbrev Table (Scalar : Type) := Fields (Value Scalar)

variable {Scalar : Type}

/-- The fields of a value that is one table, however it is written. -/
def Value.fields? : Value Scalar → Option (Table Scalar)
  | inlineTable fields => some fields
  | table _ fields => some fields
  | _ => none

/-! ### What a document is once it has been read -/

mutual

/-- A value as it is read. -/
def Value.plain : Value Scalar → Toml.Value Scalar
  | .text content => .text content
  | .scalar value => .scalar value
  | .array items => .array (plainItems items)
  | .inlineTable fields => .table (plainFields fields)
  | .table _ fields => .table (plainFields fields)
  | .tables items => .array (plainTables items).reverse

/-- The items of an array as they are read. -/
def plainItems : List (Value Scalar) → List (Toml.Value Scalar)
  | [] => []
  | item :: rest => item.plain :: plainItems rest

/-- The fields of a table as they are read. -/
def plainFields : List (Text × Value Scalar) → List (Text × Toml.Value Scalar)
  | [] => []
  | (key, value) :: rest => (key, value.plain) :: plainFields rest

/-- Tables as they are read, in the same order. -/
def plainTables : List (List (Text × Value Scalar)) → List (Toml.Value Scalar)
  | [] => []
  | fields :: rest => .table (plainFields fields) :: plainTables rest

end

/-! ### Definitions -/

namespace Table

/-- Defines the value at the end of a dotted key. A table on the way that a header has declared, or
anything else on the way that is no table, ends the attempt, and so does a value that is already
there. -/
def define? (value : Value Scalar) (fields : Table Scalar) : List Text → Option (Table Scalar)
  | [] => none
  | [key] => if (fields.get? key).isSome then none else some (fields.set key value)
  | key :: next :: rest =>
    match fields.get? key with
    | none => (define? value [] (next :: rest)).map fun inner => fields.set key (.table false inner)
    | some (.table false inner) =>
      (define? value inner (next :: rest)).map fun inner => fields.set key (.table false inner)
    | some _ => none

/-- Changes the fields of the table at a path, which is made if it is not there. Of tables in double
brackets the last is meant. -/
def change? (change : Table Scalar → Option (Table Scalar)) (fields : Table Scalar) :
    List Text → Option (Table Scalar)
  | [] => change fields
  | key :: rest =>
    match fields.get? key with
    | none => (change? change [] rest).map fun inner => fields.set key (.table false inner)
    | some (.table declared inner) =>
      (change? change inner rest).map fun inner => fields.set key (.table declared inner)
    | some (.tables (last :: others)) =>
      (change? change last rest).map fun last => fields.set key (.tables (last :: others))
    | some _ => none

/-- Declares the table of a header under its last key. -/
def declare? (key : Text) (fields : Table Scalar) : Option (Table Scalar) :=
  match fields.get? key with
  | none => some (fields.set key (.table true []))
  | some (.table false inner) => some (fields.set key (.table true inner))
  | some _ => none

/-- Opens a further table of a header in double brackets under its last key. -/
def append? (key : Text) (fields : Table Scalar) : Option (Table Scalar) :=
  match fields.get? key with
  | none => some (fields.set key (.tables [[]]))
  | some (.tables items) => some (fields.set key (.tables ([] :: items)))
  | some _ => none

/-- Opens the table of a header, in double brackets or single ones, under its last key. -/
def open? (double : Bool) (key : Text) (fields : Table Scalar) : Option (Table Scalar) :=
  if double then append? key fields else declare? key fields

end Table

end SourceLint.Toml.Draft

namespace SourceLint.Toml

/-- A document as far as it is read: its fields, and the path of the table that keys go to. -/
structure Draft (Scalar : Type) where
  fields : Draft.Table Scalar := []
  current : List Text := []

namespace Draft

variable {Scalar : Type}

/-- The draft behind a header for a path. -/
def header? (draft : Draft Scalar) (double : Bool) (path : List Text) : Option (Draft Scalar) := do
  let key ← path.getLast?
  let fields ← draft.fields.change? (Table.open? double key) path.dropLast
  return ⟨fields, path⟩

/-- The draft with the fields of the current table changed. -/
def change? (draft : Draft Scalar) (change : Table Scalar → Option (Table Scalar)) :
    Option (Draft Scalar) :=
  (draft.fields.change? change draft.current).map fun fields => { draft with fields := fields }

end Draft

end SourceLint.Toml
