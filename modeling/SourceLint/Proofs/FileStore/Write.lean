/-
This file says what writing a file changes: the bytes of that file and nothing else. A write turns
no file into a directory and makes no new entry, so every name leads where it led before, and only
the names that lead to the written file read differently afterwards.
-/
import SourceLint.FileStore

namespace SourceLint.FileStore

variable (store : FileStore)

/-- What a name reads that leads to a path. -/
theorem read_of_locate (name : Text) (path : FilePath) (located : store.locate name = .ok path) :
    store.read name =
      match store.entryAt? path with
      | some (.file bytes) => .ok bytes
      | some .directory => .error .isDirectory
      | none => .error (.notFound name) := by
  rw [read, located]
  rfl

/-- What a name reads that leads nowhere. -/
theorem read_of_lost (name : Text) (problem : FileProblem)
    (lost : store.locate name = .error problem) : store.read name = .error problem := by
  rw [read, lost]
  rfl

theorem read_eq_ok_iff (name : Text) (bytes : List UInt8) :
    store.read name = .ok bytes ↔
      ∃ path, store.locate name = .ok path ∧ store.entryAt? path = some (.file bytes) := by
  cases located : store.locate name with
  | error problem => simp [store.read_of_lost name problem located]
  | ok path =>
    rw [store.read_of_locate name path located]
    constructor
    · intro reads
      refine ⟨path, rfl, ?_⟩
      split at reads
      · cases reads
        assumption
      · cases reads
      · cases reads
    · rintro ⟨_, same, found⟩
      cases same
      rw [found]

/-- A name reads as it does in another store if it leads to the same path and the same entry is
there. -/
theorem read_congr (other : FileStore) (name : Text)
    (sameLocate : other.locate name = store.locate name)
    (sameEntry : ∀ path, store.locate name = .ok path →
      other.entryAt? path = store.entryAt? path) :
    other.read name = store.read name := by
  cases located : store.locate name with
  | error problem =>
    rw [store.read_of_lost name problem located,
      other.read_of_lost name problem (sameLocate.trans located)]
  | ok path =>
    rw [store.read_of_locate name path located,
      other.read_of_locate name path (sameLocate.trans located), sameEntry path located]

/-! ### The entries after a write -/

/-- An entry after a write to a path. -/
def overwritten (path : FilePath) (bytes : List UInt8) (entry : FilePath × FileEntry) :
    FilePath × FileEntry :=
  if entry.1 = path then (path, .file bytes) else entry

/-- The store after a write to a path. -/
def overwrite (path : FilePath) (bytes : List UInt8) : FileStore :=
  { store with entries := store.entries.map (overwritten path bytes) }

theorem overwritten_fst (path : FilePath) (bytes : List UInt8) (entry : FilePath × FileEntry) :
    (overwritten path bytes entry).1 = entry.1 := by
  unfold overwritten
  split
  · exact Eq.symm ‹_›
  · rfl

theorem write_eq_overwrite (name : Text) (path : FilePath)
    (located : store.locate name = .ok path) (bytes : List UInt8) :
    store.write name bytes = store.overwrite path bytes := by
  rw [write, located]
  rfl

/-- After a write to a file all other entries are as before. -/
theorem entryAt?_overwrite (path : FilePath) (old bytes : List UInt8)
    (isFile : store.entryAt? path = some (.file old)) (other : FilePath) :
    (store.overwrite path bytes).entryAt? other =
      if other = path then some (.file bytes) else store.entryAt? other := by
  have found : (store.overwrite path bytes).entries.find? (fun entry => entry.1 = other) =
      (store.entries.find? fun entry => entry.1 = other).map (overwritten path bytes) := by
    show (store.entries.map (overwritten path bytes)).find? _ = _
    rw [List.find?_map]
    congr 2
    funext entry
    exact congrArg (fun key => decide (key = other)) (overwritten_fst path bytes entry)
  have leads : ((store.overwrite path bytes).entries.any fun entry => other.isPrefixOf entry.1) =
      store.entries.any fun entry => other.isPrefixOf entry.1 := by
    show (store.entries.map (overwritten path bytes)).any _ = _
    rw [List.any_map]
    congr 1
    funext entry
    exact congrArg other.isPrefixOf (overwritten_fst path bytes entry)
  rw [entryAt?, found, leads]
  cases first : store.entries.find? fun entry => entry.1 = other with
  | some entry =>
    have atOther : entry.1 = other := by simpa using List.find?_some first
    show some (overwritten path bytes entry).2 = _
    rw [entryAt?, first, overwritten, atOther]
    split <;> rfl
  | none =>
    -- A path with a file has an entry of its own.
    have different : other ≠ path := by
      rintro rfl
      rw [entryAt?, first] at isFile
      dsimp only at isFile
      split at isFile <;> cases isFile
    rw [if_neg different, entryAt?, first]
    rfl

/-- After a write to a file every walk leads where it led before. -/
theorem walk_overwrite (path : FilePath) (old bytes : List UInt8)
    (isFile : store.entryAt? path = some (.file old)) (name : Text) (parts : List Text)
    (origin : FilePath) :
    (store.overwrite path bytes).walk name origin parts = store.walk name origin parts := by
  induction parts generalizing origin with
  | nil => rfl
  | cons part rest inductionHypothesis =>
    rw [walk, walk, store.entryAt?_overwrite path old bytes isFile]
    by_cases here : origin = path
    · rw [if_pos here, here, isFile]
    · rw [if_neg here]
      split <;> first | rfl | exact inductionHypothesis _

theorem locate_overwrite (path : FilePath) (old bytes : List UInt8)
    (isFile : store.entryAt? path = some (.file old)) (name : Text) :
    (store.overwrite path bytes).locate name = store.locate name := by
  rw [locate, locate]
  split
  · rfl
  · exact store.walk_overwrite path old bytes isFile name _ _

/-! ### Reading after a write -/

variable (name : Text) (old bytes : List UInt8) (reads : store.read name = .ok old)

include reads

/-- A write moves no file. -/
theorem locate_write (other : Text) :
    (store.write name bytes).locate other = store.locate other := by
  obtain ⟨path, located, isFile⟩ := (store.read_eq_ok_iff name old).mp reads
  rw [store.write_eq_overwrite name path located]
  exact store.locate_overwrite path old bytes isFile other

/-- The written file reads as what was written. -/
theorem read_write_self : (store.write name bytes).read name = .ok bytes := by
  obtain ⟨path, located, isFile⟩ := (store.read_eq_ok_iff name old).mp reads
  refine (read_eq_ok_iff _ name bytes).mpr ⟨path, ?_, ?_⟩
  · rw [store.locate_write name old bytes reads, located]
  · rw [store.write_eq_overwrite name path located, store.entryAt?_overwrite path old bytes isFile,
      if_pos rfl]

/-- A name that leads elsewhere reads as before. -/
theorem read_write_of_ne (other : Text) (apart : store.locate other ≠ store.locate name) :
    (store.write name bytes).read other = store.read other := by
  obtain ⟨path, located, isFile⟩ := (store.read_eq_ok_iff name old).mp reads
  refine store.read_congr _ other (store.locate_write name old bytes reads other) ?_
  intro otherPath otherLocated
  have different : otherPath ≠ path := by
    rintro rfl
    exact apart (otherLocated.trans located.symm)
  rw [store.write_eq_overwrite name path located, store.entryAt?_overwrite path old bytes isFile,
    if_neg different]

end SourceLint.FileStore
