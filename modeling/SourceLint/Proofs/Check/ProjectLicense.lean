/-
This file proves that the warning on the license of a project is sound, whoever reads the project file
as TOML. The place of the warning is looked up in the layout of the file, and what a reader accepts is
a document, in which the layout has places only where a value or the end of a table is.
-/
import Mathlib.Data.Option.Basic
import SourceLint.Check.ProjectLicense
import SourceLint.Proofs.Toml.Locations
import SourceLint.Proofs.Toml.TableEnd

namespace SourceLint.ProjectLicense

open Toml (Layout)

/-- An insertion at one place. -/
theorem sound_insertion (content : Text) (position : Nat) (message text : Text)
    (placed : (Span.point position).PlacedIn content) :
    Sound content [⟨.point position, message, [⟨.point position, text⟩], []⟩] := by
  refine ⟨List.forall_mem_singleton.mpr (.of_parts placed nofun
    (List.forall_mem_singleton.mpr placed)), Replacement.apart_of_points _ ?_⟩
  exact List.forall_mem_singleton.mpr rfl

/-- The layout has places in a text only. -/
structure LayoutPlaced (content : Text) (layout : Layout) : Prop where
  table? : ∀ path table, layout.table? path = some table →
    (Span.point table.bodyEnd).PlacedIn content
  valueLocation? : ∀ path span, layout.valueLocation? path = some span → span.PlacedIn content

/-- So has the layout of a document. -/
theorem layoutPlaced_ofText {dialect : Toml.Dialect} (document : Toml.Written.Document dialect) :
    LayoutPlaced document.source (Layout.ofText document.source) := by
  refine ⟨fun path table found => ?_, fun path span => Toml.placed_of_valueLocation?⟩
  obtain ⟨none, -⟩ | ⟨place, changed, isPlace, -, front, back, source, isEnd, -⟩ :=
    Toml.table?_ofText document path .empty
  · rw [none] at found
    cases found
  · cases isPlace.symm.trans found
    refine .point ?_ (Toml.not_splitsBreak_table? _ path table found)
    rw [isEnd, source, List.length_append, Nat.zero_add]
    exact Nat.le_add_right _ _

theorem sound_missingWarning {content : Text} {layout : Layout}
    (placed : LayoutPlaced content layout) : Sound content [missingWarning content layout] := by
  rw [missingWarning]
  split
  case h_1 table found => exact sound_insertion _ _ _ _ (placed.table? _ table found)
  case h_2 => exact sound_insertion _ _ _ _ (.point_length content)

theorem sound_wrongWarning {content : Text} {layout : Layout}
    (placed : LayoutPlaced content layout) : Sound content (wrongWarning layout).toList := by
  cases wrong : wrongWarning layout with
  | none => exact ⟨nofun, Replacement.apart_of_row _ .nil⟩
  | some warning =>
    obtain ⟨place, found, rfl⟩ := Option.map_eq_some_iff.mp wrong
    have inText : place.PlacedIn content := by
      rcases (Option.orElse_eq_some _ _ _).mp found with isText | ⟨-, isLicense⟩
      · exact placed.valueLocation? _ place isText
      · exact placed.valueLocation? _ place isLicense
    exact ⟨List.forall_mem_singleton.mpr (.of_parts inText nofun nofun),
      Replacement.apart_of_row _ .nil⟩

variable {dialect : Toml.Dialect} {parse : Text → Option (Toml.Table dialect.Scalar)}

/-- The warning on the license is sound for each reader. -/
theorem sound_check (reads : Toml.ReadsToml dialect parse) (source : Source)
    (warnings : List Warning) (checks : check parse source = .ok warnings) :
    Sound source.content warnings := by
  rw [check] at checks
  split at checks
  case h_1 => cases checks
  case h_2 table parses =>
    obtain ⟨document, isSource, -⟩ := reads.sound _ _ parses
    have placed := layoutPlaced_ofText document
    rw [isSource] at placed
    dsimp only at checks
    split at checks
    · cases checks
      exact sound_missingWarning placed
    · cases checks
      split
      · exact ⟨nofun, Replacement.apart_of_row _ .nil⟩
      · exact sound_wrongWarning placed
    · cases checks
      exact sound_wrongWarning placed

end SourceLint.ProjectLicense
