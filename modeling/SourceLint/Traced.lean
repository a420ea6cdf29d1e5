/-
Results with a record of what was done to get them. Linting asks git questions and makes remarks to
the user; both are kept in the order in which they happen, also when the work ends in a failure. A
value that is loaded when it is first needed is kept from then on; a failure to load is not kept, so
the next need loads again.
-/
import SourceLint.LintError

namespace SourceLint

/-- Something done on the way to a result. -/
inductive Event where
  | askedGit (arguments : List Text)
  | remarked (text : Text)
  deriving DecidableEq, Repr

/-- The arguments of a question to git. -/
def Event.question? : Event → Option (List Text)
  | askedGit arguments => some arguments
  | remarked _ => none

/-- The text of a remark. -/
def Event.remark? : Event → Option Text
  | askedGit _ => none
  | remarked text => some text

/-- A result or a failure, and what was done before it. -/
structure Traced (Value : Type) where
  events : List Event
  result : Except LintError Value

namespace Traced

/-- A result for which nothing had to be done. -/
def ofExcept {Value : Type} (result : Except LintError Value) : Traced Value := ⟨[], result⟩

/-- Goes on with a result; after a failure nothing more is done. -/
def andThen {Value Next : Type} (traced : Traced Value) (next : Value → Traced Next) :
    Traced Next :=
  match traced.result with
  | .ok value => ⟨traced.events ++ (next value).events, (next value).result⟩
  | .error error => ⟨traced.events, .error error⟩

/-- A remark to the user. -/
def remark (text : Text) : Traced Unit := ⟨[.remarked text], .ok ()⟩

instance : Monad Traced where
  pure value := ⟨[], .ok value⟩
  bind := andThen

end Traced

/-- A value that may have been loaded. -/
structure Memo (Value : Type) where
  kept : Option Value := none
  deriving DecidableEq, Repr

namespace Memo

/-- The value, from the memo or else by loading it, and the memo afterwards. -/
def get {Value Failure : Type} (memo : Memo Value) (load : Except Failure Value) :
    Except Failure Value × Memo Value :=
  match memo.kept with
  | some value => (.ok value, memo)
  | none =>
    match load with
    | .ok value => (.ok value, ⟨some value⟩)
    | .error failure => (.error failure, memo)

end Memo

end SourceLint
