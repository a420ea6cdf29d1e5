/-
This file says what a run leaves alone. Linting a file writes to no other, and a write changes only
what the names read that lead to the written file. So from the start of a run to its end, whether it
passes or fails, every name leads where it led, and a name that leads to none of the files of the
run reads as it did.
-/
import SourceLint.Proofs.FileStore.Write
import SourceLint.Proofs.Run.Failure
import SourceLint.Proofs.Text.Utf8

namespace SourceLint

/-- From one store to another, nothing changes but what the given files hold. -/
structure FileStore.AgreesOutside (files : List Text) (start final : FileStore) : Prop where
  locate_eq : ∀ name, final.locate name = start.locate name
  read_eq : ∀ name, start.locate name ∉ files.map start.locate → final.read name = start.read name

namespace FileStore.AgreesOutside

theorem refl (files : List Text) (store : FileStore) : AgreesOutside files store store :=
  ⟨fun _ => rfl, fun _ _ => rfl⟩

theorem mono {files more : List Text} {start final : FileStore}
    (agrees : AgreesOutside files start final) (among : files ⊆ more) :
    AgreesOutside more start final :=
  ⟨agrees.locate_eq, fun name elsewhere => agrees.read_eq name fun member =>
    elsewhere (List.map_subset _ among member)⟩

theorem trans {files others : List Text} {start middle final : FileStore}
    (first : AgreesOutside files start middle) (second : AgreesOutside others middle final) :
    AgreesOutside (files ++ others) start final := by
  refine ⟨fun name => (second.locate_eq name).trans (first.locate_eq name),
    fun name elsewhere => ?_⟩
  rw [List.map_append, List.mem_append, not_or] at elsewhere
  have sameLocate : middle.locate = start.locate := funext first.locate_eq
  rw [second.read_eq name (by rw [sameLocate]; exact elsewhere.2), first.read_eq name elsewhere.1]

end FileStore.AgreesOutside

namespace Plan

variable {State : Type} (plan : Plan State)

theorem decode?_of_textOfBytes? (bytes : List UInt8) (content : Text)
    (text : textOfBytes? bytes = some content) : Text.decode? bytes = some content := by
  rw [textOfBytes?] at text
  split at text
  · cases text
  · exact text

theorem encode_of_textOfBytes? (bytes : List UInt8) (content : Text)
    (text : textOfBytes? bytes = some content) : Text.encode content = bytes :=
  Text.encode_of_decode? bytes content (decode?_of_textOfBytes? bytes content text)

/-! ### A text that is done -/

section settle

variable (store : FileStore) (file : Text) (bytes : List UInt8)
  (reads : store.read file = .ok bytes) (content : Text)

include reads

/-- After a text is done the file holds the fixed text, written or not. -/
theorem read_settle (text : textOfBytes? bytes = some content) (fixed : Text) :
    (settle store (plan.sourceOf file content) fixed).read file = .ok (Text.encode fixed) := by
  rw [settle]
  split
  case isTrue same =>
    rw [reads, same]
    exact congrArg Except.ok (encode_of_textOfBytes? bytes content text).symm
  case isFalse => exact store.read_write_self file bytes _ reads

/-- A text that is done changes its own file only. -/
theorem agreesOutside_settle (fixed : Text) :
    FileStore.AgreesOutside [file] store (settle store (plan.sourceOf file content) fixed) := by
  rw [settle]
  split
  · exact .refl _ store
  · refine ⟨store.locate_write file bytes _ reads, fun name elsewhere => ?_⟩
    rw [List.map_singleton, List.mem_singleton] at elsewhere
    exact store.read_write_of_ne file bytes _ reads name elsewhere

end settle

/-! ### Files and runs -/

variable {plan}

theorem Lints.agreesOutside {start final : Progress State} {file : Text}
    {result : Except LintError Unit} (lints : plan.Lints start file (final, result)) :
    FileStore.AgreesOutside [file] start.store final.store := by
  cases lints with
  | done bytes reads content _ _ _ fixed =>
    exact plan.agreesOutside_settle start.store file bytes reads content fixed
  | _ => exact .refl _ start.store

theorem agreesOutside_of_run (start final : Progress State) (files : List Text)
    (result : Except LintError Unit) (ends : plan.run start files = (final, result)) :
    FileStore.AgreesOutside files start.store final.store := by
  induction files generalizing start with
  | nil =>
    cases ends
    exact .refl _ _
  | cons file rest inductionHypothesis =>
    rw [run] at ends
    split at ends
    case h_1 next error failed =>
      cases ends
      exact ((plan.lints_iff start file _).mpr failed).agreesOutside.mono
        (List.cons_subset_cons file (List.nil_subset rest))
    case h_2 next passed =>
      exact ((plan.lints_iff start file _).mpr passed).agreesOutside.trans
        (inductionHypothesis next ends)

/-- After a file is linted in a run, nothing changes but what the files behind it hold. -/
theorem agreesOutside_behind (start reached final : Progress State) (before : List Text)
    (file : Text) (after : List Text) (result : Except LintError Unit)
    (done : plan.run start before = (reached, .ok ()))
    (ends : plan.run start (before ++ file :: after) = (final, result)) :
    FileStore.AgreesOutside after (plan.lintFile reached file).1.store final.store := by
  rw [plan.run_append start reached before _ done, run] at ends
  split at ends
  case h_1 next error failed =>
    cases ends
    rw [failed]
    exact .refl _ _
  case h_2 next passed =>
    rw [passed]
    exact agreesOutside_of_run next final after result ends

end Plan

end SourceLint
