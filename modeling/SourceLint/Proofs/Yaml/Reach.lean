/-
The package lists of a dependency file as places in its tree. Its scalars may be changed where they
stand, and as long as the keys hold what they held, the lists of the changed tree are the changed lists.
-/
import SourceLint.PackageLists
import SourceLint.Proofs.Yaml.Rewriting

namespace SourceLint

open Yaml (Node Leaf)

/-! ### Package lists of a changed tree -/

/-- A change leaves alone what scalars stand for. -/
def KeepsContent (change : Leaf → Leaf) : Prop := ∀ leaf, (change leaf).content = leaf.content

/-- A way to pick nodes from a tree that picks the changed nodes from the changed tree, and the scalars
of what it picks are scalars of the tree in their order. -/
structure Picks (pick : Node → List Node) : Prop where
  mapScalars : ∀ {inKeys : Leaf → Leaf} (elsewhere : Leaf → Leaf) (node : Node), KeepsContent inKeys →
    pick (node.mapScalars inKeys elsewhere) = (pick node).map (Node.mapScalars inKeys elsewhere)
  leaves : ∀ node, ((pick node).flatMap Node.leaves).Sublist node.leaves

namespace Picks

variable {pick further : Node → List Node}

/-- Nodes may be picked from the nodes that are picked. -/
theorem bind (picks : Picks pick) (furtherPicks : Picks further) :
    Picks fun node => (pick node).flatMap further where
  mapScalars elsewhere node keeps := by
    rw [picks.mapScalars elsewhere node keeps, List.flatMap_map, List.map_flatMap]
    exact List.flatMap_congr fun node _ => furtherPicks.mapScalars elsewhere node keeps
  leaves node := by
    rw [List.flatMap_assoc]
    refine List.Sublist.trans ?_ (picks.leaves node)
    induction pick node with
    | nil => exact List.Sublist.slnil
    | cons first rest inductionHypothesis =>
      rw [List.flatMap_cons, List.flatMap_cons]
      exact (furtherPicks.leaves first).append inductionHypothesis

theorem items : Picks Node.items where
  mapScalars elsewhere node _ := by
    cases node with
    | sequence items => exact Yaml.mapItemScalars_eq _ _ items
    | _ => rfl
  leaves node := by
    cases node with
    | sequence items =>
      rw [Node.leaves, Yaml.leavesOfItems_eq]
      exact List.Sublist.refl _
    | _ => exact List.nil_sublist _

theorem self : Picks fun node => [node] where
  mapScalars _ _ _ := rfl
  leaves _ := by rw [List.flatMap_singleton]

theorem nothing : Picks fun _ => [] where
  mapScalars _ _ _ := rfl
  leaves _ := List.nil_sublist _

/-- A text that is a key stays that key if the scalars in keys hold what they held. -/
theorem text?_mapScalars {inKeys : Leaf → Leaf} (keeps : KeepsContent inKeys) (key : Node) :
    (key.mapScalars inKeys inKeys).text? = key.text? := by
  cases key with
  | scalar content style span =>
    have same := keeps ⟨content, style, span⟩
    rw [Node.mapScalars, Leaf.node, same]
    cases content <;> rfl
  | _ => rfl

/-- Nodes may be picked from the values of a mapping, from each as its key asks for. -/
theorem entries (pick : Option Text → Node → List Node) (picks : ∀ key, Picks (pick key)) :
    Picks fun node => node.entries.flatMap fun entry => pick entry.1 entry.2 where
  mapScalars {inKeys} elsewhere node keeps := by
    cases node with
    | mapping entries =>
      rw [Node.mapScalars, Yaml.mapEntryScalars_eq, Node.entries, Node.entries, List.map_map,
        List.flatMap_map, List.flatMap_map, List.map_flatMap]
      refine List.flatMap_congr fun entry _ => ?_
      dsimp only [Function.comp_apply]
      rw [text?_mapScalars keeps, (picks _).mapScalars elsewhere entry.2 keeps]
    | _ => rfl
  leaves node := by
    cases node with
    | mapping entries =>
      rw [Node.leaves, Yaml.leavesOfEntries_eq, Node.entries, List.flatMap_map, List.flatMap_assoc]
      induction entries with
      | nil => exact List.Sublist.slnil
      | cons entry rest inductionHypothesis =>
        rw [List.flatMap_cons, List.flatMap_cons]
        exact ((picks _).leaves entry.2).append inductionHypothesis
    | _ => exact List.nil_sublist _

theorem values : Picks Node.values := by
  have same : Node.values = fun node => node.entries.flatMap fun entry => [entry.2] :=
    funext fun node => List.map_eq_flatMap
  rw [same]
  exact entries (fun _ node => [node]) fun _ => self

theorem valuesOf (key : Text) : Picks fun node => node.valuesOf key := by
  have same : (fun node : Node => node.valuesOf key) = fun node => node.entries.flatMap fun entry =>
      if entry.1 = some key then [entry.2] else [] := by
    funext node
    rw [Node.valuesOf]
    induction node.entries with
    | nil => rfl
    | cons entry rest inductionHypothesis =>
      rw [List.flatMap_cons, ← inductionHypothesis]
      by_cases isKey : entry.1 = some key
      · rw [List.filter_cons_of_pos (by simp [isKey]), if_pos isKey]
        rfl
      · rw [List.filter_cons_of_neg (by simp [isKey]), if_neg isKey]
        rfl
  rw [same]
  refine entries (fun found node => if found = some key then [node] else []) fun found => ?_
  by_cases isKey : found = some key
  · rw [funext fun node => if_pos isKey]
    exact self
  · rw [funext fun node => if_neg isKey]
    exact nothing

theorem commonPackages : Picks SourceLint.commonPackages := items.bind (valuesOf _)

theorem specificPackages : Picks SourceLint.specificPackages :=
  items.bind ((valuesOf _).bind (items.bind (valuesOf _)))

theorem packagesOfSet : Picks SourceLint.packagesOfSet := by
  refine entries (fun key value =>
    if key = some (Text.ofString "common") then SourceLint.commonPackages value
    else if key = some (Text.ofString "specific") then SourceLint.specificPackages value
    else []) fun key => ?_
  by_cases isCommon : key = some (Text.ofString "common")
  · rw [funext fun node => if_pos isCommon]
    exact commonPackages
  · rw [funext fun node => if_neg isCommon]
    by_cases isSpecific : key = some (Text.ofString "specific")
    · rw [funext fun node => if_pos isSpecific]
      exact specificPackages
    · rw [funext fun node => if_neg isSpecific]
      exact nothing

theorem packageLists : Picks SourceLint.packageLists :=
  (valuesOf _).bind (values.bind packagesOfSet)

end Picks

end SourceLint
