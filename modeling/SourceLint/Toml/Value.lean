/-
The values of TOML documents as the checks see them: what a whole document is once it has been read.
Who reads it is not part of this library; a reader is a function that gives the fields of a document,
or nothing for a text that is none.
-/
import SourceLint.Text

namespace SourceLint.Toml

/-- Values under names, as a table has them. No name stands twice. -/
abbrev Fields (Value : Type) := List (Text × Value)

namespace Fields

variable {Value : Type}

/-- The value of a field. -/
def get? (fields : Fields Value) (key : Text) : Option Value := fields.lookup key

/-- The fields with a value put under a key: in its old place, or at the end. -/
def set (fields : Fields Value) (key : Text) (value : Value) : Fields Value :=
  match fields with
  | [] => [(key, value)]
  | (other, old) :: rest =>
    if other = key then (key, value) :: rest else (other, old) :: set rest key value

end Fields

/-- A value. How a truth value, a number, a date or a time is kept is up to the reader. -/
inductive Value (Scalar : Type) where
  | text (content : Text)
  | scalar (value : Scalar)
  | array (items : List (Value Scalar))
  | table (fields : List (Text × Value Scalar))

/-- The values in a table. A document is its outermost table. -/
abbrev Table (Scalar : Type) := Fields (Value Scalar)

namespace Value

variable {Scalar : Type}

/-- The fields of a value that is a table. -/
def fields? : Value Scalar → Option (Table Scalar)
  | table fields => some fields
  | _ => none

end Value

end SourceLint.Toml
