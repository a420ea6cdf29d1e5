/-
This file proves that the files that differ are read off the records of git. The records come as one
row of fields, of two or three each and with nothing between them but the zero unit behind every
field; a record is told by its status alone. A later record about a path counts in place of an
earlier one, a deletion is about no path, and a file that git does not track is added, whatever the
records say of it.
-/
import Mathlib.Data.List.Nodup
import SourceLint.Git.Changes
import SourceLint.Proofs.Text.Cut

namespace SourceLint

/-- Texts, each with a unit behind it. -/
def Text.ended (separator : CodeUnit) (texts : List Text) : Text :=
  texts.flatMap fun text => text ++ [separator]

/-- Behind the last separator there is one more, empty part. -/
theorem Text.splitAt_ended {separator : CodeUnit} {texts : List Text}
    (areNone : ∀ text ∈ texts, separator ∉ text) :
    splitAt separator (ended separator texts) = texts ++ [[]] := by
  induction texts with
  | nil => rfl
  | cons text texts inductionHypothesis =>
    obtain ⟨isNone, areNone⟩ := List.forall_mem_cons.mp areNone
    rw [ended, List.flatMap_cons, List.append_assoc, List.singleton_append,
      splitAt_append_cons _ isNone]
    exact congrArg (text :: ·) (inductionHypothesis areNone)

/-- After a result the work goes on with it. -/
theorem Traced.bind_of_ok {Value Next : Type} {traced : Traced Value} {events : List Event}
    {value : Value} (given : traced = ⟨events, .ok value⟩) (next : Value → Traced Next) :
    traced >>= next = ⟨events ++ (next value).events, (next value).result⟩ := by
  rw [given]
  rfl

namespace Git

/-! ### Records -/

/-- A record of a file that differs: what became of the file at a path, or that it was renamed or
copied, with a score of likeness, from one path to another. -/
inductive DiffRecord where
  | single (status : CodeUnit) (path : Text)
  | moved (isCopy : Bool) (score old path : Text)
  deriving DecidableEq, Repr

namespace DiffRecord

/-- The fields of a record, the status first. -/
def fields : DiffRecord → List Text
  | single status path => [[status], path]
  | moved isCopy score old path => [(if isCopy then 'C' else 'R') :: score, old, path]

/-- The records as git lists them. -/
def written (records : List DiffRecord) : Text := Text.ended 0 (records.flatMap fields)

/-- No field holds a zero, and a status with one path is neither that of a renamed nor that of a
copied file. -/
structure WellFormed (record : DiffRecord) : Prop where
  noZero : ∀ field ∈ record.fields, 0 ∉ field
  status : ∀ status path, record = single status path → status ≠ 'R' ∧ status ≠ 'C'

/-- The path that a record is about and the file there, where the old files are in a commit. -/
def change? (commit : Text) : DiffRecord → Option (Text × ChangedFile)
  | single status path =>
    if status = 'A' then some (path, ⟨.added, none⟩)
    else if status = 'D' then none
    else some (path, ⟨.modified, some ⟨commit, some path⟩⟩)
  | moved isCopy _ old path =>
    some (path, ⟨if isCopy then .copied else .renamed, some ⟨commit, some old⟩⟩)

/-- The file at a path by the last of the records that are about it. -/
def last? (commit path : Text) : List DiffRecord → Option ChangedFile
  | [] => none
  | record :: rest =>
    (last? commit path rest).or
      (((record.change? commit).filter fun change => change.1 = path).map Prod.snd)

end DiffRecord

namespace ChangedFiles

/-- Whether a status is that of a renamed or of a copied file is told by its first unit. -/
theorem startsWith_letter {letter : CodeUnit} {beginning : Text} (isLetter : beginning = [letter])
    (unit : CodeUnit) (rest : Text) :
    Text.startsWith (unit :: rest) beginning = (letter == unit) := by
  rw [isLetter, Text.startsWith, List.isPrefixOf_cons_cons, List.isPrefixOf_nil_left, Bool.and_true]

/-- The fields of a record tell what it says, and the reader goes on behind them. -/
theorem ofFields_append {commit : Text} {record : DiffRecord} (wellFormed : record.WellFormed)
    (rest : List Text) :
    ofFields commit (record.fields ++ rest) =
      ((record.change? commit).map fun change => (some change.1, change.2)).toList ++
        ofFields commit rest := by
  have renamed (unit : CodeUnit) (rest : Text) :
      Text.startsWith (unit :: rest) "R" = (('R' : CodeUnit) == unit) :=
    startsWith_letter (by decide) unit rest
  have copied (unit : CodeUnit) (rest : Text) :
      Text.startsWith (unit :: rest) "C" = (('C' : CodeUnit) == unit) :=
    startsWith_letter (by decide) unit rest
  cases record with
  | single status path =>
    obtain ⟨notRenamed, notCopied⟩ := wellFormed.status status path rfl
    have isOther : (('R' : CodeUnit) == status || ('C' : CodeUnit) == status) = false := by
      simp [notRenamed.symm, notCopied.symm]
    have oneLetter (letter : CodeUnit) : [status] = [letter] ↔ status = letter := by simp
    have isAdded : Text.ofString "A" = [('A' : CodeUnit)] := by decide
    have isDeleted : Text.ofString "D" = [('D' : CodeUnit)] := by decide
    rw [DiffRecord.fields, List.cons_append, List.cons_append, List.nil_append, ofFields, renamed,
      copied, isOther]
    simp only [List.isEmpty_cons, Bool.false_eq_true, if_false, ofStatus, isAdded, isDeleted,
      oneLetter, DiffRecord.change?]
    split_ifs <;> rfl
  | moved isCopy score old path =>
    rw [DiffRecord.fields, List.cons_append, List.cons_append, List.cons_append, List.nil_append,
      ofFields, renamed, copied]
    cases isCopy <;> rfl

/-- The records are read one after another, up to the empty part behind the last zero. -/
theorem ofFields_written {commit : Text} {records : List DiffRecord}
    (wellFormed : ∀ record ∈ records, record.WellFormed) :
    ofFields commit (Text.splitAt 0 (DiffRecord.written records)) =
      (records.filterMap (DiffRecord.change? commit)).map fun change => (some change.1, change.2) := by
  have noZero : ∀ field ∈ records.flatMap DiffRecord.fields, 0 ∉ field := by
    intro field member
    obtain ⟨record, isRecord, isField⟩ := List.mem_flatMap.mp member
    exact (wellFormed record isRecord).noZero field isField
  rw [DiffRecord.written, Text.splitAt_ended noZero]
  clear noZero
  induction records with
  | nil => rfl
  | cons record records inductionHypothesis =>
    obtain ⟨first, others⟩ := List.forall_mem_cons.mp wellFormed
    rw [List.flatMap_cons, List.append_assoc, ofFields_append first, inductionHypothesis others,
      List.filterMap_cons]
    cases record.change? commit <;> rfl

/-! ### The files put in -/

variable {key other : Option Text} {file : ChangedFile} {files : List (Option Text × ChangedFile)}

/-- The file under a key. -/
def lookup (key : Option Text) (files : List (Option Text × ChangedFile)) : Option ChangedFile :=
  (files.find? fun entry => entry.1 = key).map Prod.snd

theorem lookup_cons (entry : Option Text × ChangedFile) :
    lookup key (entry :: files) = if entry.1 = key then some entry.2 else lookup key files := by
  rw [lookup, List.find?_cons]
  by_cases same : entry.1 = key
  · rw [decide_eq_true same, if_pos same]
    rfl
  · rw [decide_eq_false same, if_neg same]
    rfl

theorem lookup_append (first second : List (Option Text × ChangedFile)) :
    lookup key (first ++ second) = (lookup key first).or (lookup key second) := by
  rw [lookup, List.find?_append, Option.map_or]
  rfl

/-- What is under a key is one of the entries. -/
theorem mem_of_lookup (found : lookup key files = some file) : (key, file) ∈ files := by
  obtain ⟨entry, isFirst, rfl⟩ := Option.map_eq_some_iff.mp found
  have same : entry.1 = key := by simpa using List.find?_some isFirst
  exact same ▸ List.mem_of_find?_eq_some isFirst

theorem lookup_eq_none_iff : lookup key files = none ↔ ∀ entry ∈ files, entry.1 ≠ key := by
  simp [lookup]

theorem lookup_put : lookup key (put other file files) =
    if other = key then some file else lookup key files := by
  fun_induction put other file files with
  | case1 => exact lookup_cons _
  | case2 old rest =>
    rw [lookup_cons, lookup_cons]
    split_ifs <;> rfl
  | case3 first old rest unlike inductionHypothesis =>
    rw [lookup_cons, lookup_cons, inductionHypothesis]
    by_cases same : first = key
    · rw [if_pos same, if_pos same, if_neg fun isOther => unlike (same.trans isOther.symm)]
    · rw [if_neg same, if_neg same]

theorem mem_keys_put : key ∈ (put other file files).map Prod.fst ↔
    key = other ∨ key ∈ files.map Prod.fst := by
  fun_induction put other file files with
  | case1 => simp
  | case2 old rest => simp
  | case3 first old rest unlike inductionHypothesis =>
    rw [List.map_cons, List.map_cons, List.mem_cons, List.mem_cons, inductionHypothesis]
    exact or_left_comm

/-- No key is there twice. -/
theorem nodup_put (nodup : (files.map Prod.fst).Nodup) :
    ((put other file files).map Prod.fst).Nodup := by
  fun_induction put other file files with
  | case1 => exact List.nodup_singleton other
  | case2 old rest => exact nodup
  | case3 first old rest unlike inductionHypothesis =>
    rw [List.map_cons, List.nodup_cons] at nodup ⊢
    refine ⟨fun again => ?_, inductionHypothesis nodup.2⟩
    exact (mem_keys_put.mp again).elim unlike nodup.1

/-- An entry is what is under its key. -/
theorem lookup_of_mem (nodup : (files.map Prod.fst).Nodup) (member : (key, file) ∈ files) :
    lookup key files = some file := by
  induction files with
  | nil => cases member
  | cons entry rest inductionHypothesis =>
    rw [List.map_cons, List.nodup_cons] at nodup
    rw [lookup_cons]
    rcases List.mem_cons.mp member with rfl | later
    · exact if_pos rfl
    · have unlike : entry.1 ≠ key := by
        rintro rfl
        exact nodup.1 (List.mem_map.mpr ⟨_, later, rfl⟩)
      rw [if_neg unlike]
      exact inductionHypothesis nodup.2 later

/-- Of the files that are put in under a key the last one stays. -/
theorem lookup_putAll (changed : ChangedFiles) (entries : List (Option Text × ChangedFile)) :
    lookup key (changed.putAll entries).files =
      (lookup key entries.reverse).or (lookup key changed.files) := by
  obtain ⟨files⟩ := changed
  rw [putAll]
  dsimp only
  induction entries generalizing files with
  | nil => rfl
  | cons entry rest inductionHypothesis =>
    rw [List.foldl_cons, inductionHypothesis, lookup_put, List.reverse_cons, lookup_append,
      lookup_cons, Option.or_assoc]
    congr 1
    split_ifs <;> rfl

theorem nodup_putAll (changed : ChangedFiles) (entries : List (Option Text × ChangedFile))
    (nodup : (changed.files.map Prod.fst).Nodup) :
    ((changed.putAll entries).files.map Prod.fst).Nodup := by
  obtain ⟨files⟩ := changed
  rw [putAll]
  dsimp only
  induction entries generalizing files with
  | nil => exact nodup
  | cons entry rest inductionHypothesis =>
    exact inductionHypothesis _ (nodup_put nodup)

/-! ### The files that differ -/

theorem lookup_added (path : Text) (paths : List Text) :
    lookup (some path) (added paths).reverse =
      if path ∈ paths then some ⟨.added, none⟩ else none := by
  split
  case isTrue member =>
    obtain ⟨file, found⟩ : ∃ file, lookup (some path) (added paths).reverse = some file :=
      Option.ne_none_iff_exists'.mp fun isNone => lookup_eq_none_iff.mp isNone
        (some path, ⟨.added, none⟩)
        (List.mem_reverse.mpr (List.mem_map.mpr ⟨path, member, rfl⟩)) rfl
    obtain ⟨_, -, same⟩ := List.mem_map.mp (List.mem_reverse.mp (mem_of_lookup found))
    rw [found, ← (Prod.mk.inj same).2]
  case isFalse isNone =>
    refine lookup_eq_none_iff.mpr fun entry member same => isNone ?_
    obtain ⟨other, isPath, rfl⟩ := List.mem_map.mp (List.mem_reverse.mp member)
    exact Option.some.inj same ▸ isPath

theorem lookup_changes (commit path : Text) (records : List DiffRecord) :
    lookup (some path) ((records.filterMap (DiffRecord.change? commit)).map
        fun change => (some change.1, change.2)).reverse =
      DiffRecord.last? commit path records := by
  induction records with
  | nil => rfl
  | cons record rest inductionHypothesis =>
    rw [DiffRecord.last?, ← inductionHypothesis, List.filterMap_cons]
    cases record.change? commit with
    | none => simp
    | some change =>
      dsimp only
      rw [List.map_cons, List.reverse_cons, lookup_append, lookup_cons]
      congr 1
      by_cases same : change.1 = path <;> simp [Option.filter_some, same, lookup]

end ChangedFiles

/-! ### Asking git -/

namespace Repository

/-- Git succeeds on some arguments, with an output. -/
def Answers (repository : Repository) (arguments : List Text) (output : Text) : Prop :=
  ∃ complaint, repository.outcome arguments = .finished 0 output complaint

variable {repository : Repository}

theorem ask_eq {arguments : List Text} {output : Text}
    (answers : repository.Answers arguments output) :
    repository.ask arguments = ⟨[.askedGit arguments], .ok output⟩ := by
  obtain ⟨complaint, finished⟩ := answers
  rw [ask, finished]
  rfl

theorem askList_eq {arguments : List Text} {parts : List Text} {separator : CodeUnit}
    (answers : repository.Answers arguments (Text.ended separator parts))
    (arePart : ∀ part ∈ parts, part ≠ [] ∧ separator ∉ part) :
    repository.askList separator arguments = ⟨[.askedGit arguments], .ok parts⟩ := by
  have split : (Text.splitAt separator (Text.ended separator parts)).filter
      (fun part => !part.isEmpty) = parts := by
    rw [Text.splitAt_ended fun part member => (arePart part member).2, List.filter_append,
      List.filter_eq_self.mpr fun part member => by simp [(arePart part member).1]]
    exact List.append_nil parts
  rw [askList, ask_eq answers]
  exact congrArg (fun parts => Traced.mk _ (.ok parts)) split

end Repository

/-- The arguments with which git lists the files that it does not track. -/
def untrackedArguments : List Text :=
  ["ls-files", "--others", "--exclude-standard", "--full-name", "-z", ":/"]

/-- The arguments with which git lists what differs from a commit. -/
def diffArguments (base : Text) : List Text :=
  ["diff", "--name-status", "-z", "--find-renames", "--find-copies", "--find-copies-harder", base]

/-- The files that differ are those of the records, each as the last record about it says, and those
that git does not track, which are added. -/
theorem changedFiles_of_records {repository : Repository} {commit mergeBase : Text}
    {records : List DiffRecord} {untracked : List Text}
    (wellFormed : ∀ record ∈ records, record.WellFormed)
    (arePaths : ∀ path ∈ untracked, path ≠ [] ∧ 0 ∉ path)
    (listsUntracked : repository.Answers untrackedArguments (Text.ended 0 untracked))
    (tellsBase : repository.Answers ["merge-base", commit, "HEAD"] mergeBase)
    (listsRecords :
      repository.Answers (diffArguments mergeBase.trim) (DiffRecord.written records)) :
    ∃ changed : ChangedFiles,
      repository.changedFiles (some commit) =
        ⟨[.askedGit untrackedArguments, .askedGit ["merge-base", commit, "HEAD"],
          .askedGit (diffArguments mergeBase.trim)], .ok changed⟩ ∧
      (changed.files.map Prod.fst).Nodup ∧
      (∀ entry ∈ changed.files, ∃ path, entry.1 = some path) ∧
      ∀ path, changed.find? path =
        if path ∈ untracked then some ⟨.added, none⟩
        else DiffRecord.last? mergeBase.trim path records := by
  let entries := (records.filterMap (DiffRecord.change? mergeBase.trim)).map
    (fun change => (some change.1, change.2)) ++ ChangedFiles.added untracked
  have nodup : ((ChangedFiles.putAll {} entries).files.map Prod.fst).Nodup :=
    ChangedFiles.nodup_putAll {} entries .nil
  have found (key : Option Text) : ChangedFiles.lookup key (ChangedFiles.putAll {} entries).files =
      ChangedFiles.lookup key entries.reverse :=
    (ChangedFiles.lookup_putAll {} entries).trans (Option.or_none)
  refine ⟨ChangedFiles.putAll {} entries, ?_, nodup, fun entry member => ?_, fun path => ?_⟩
  · rw [untrackedArguments] at listsUntracked ⊢
    rw [diffArguments] at listsRecords ⊢
    rw [Repository.changedFiles, Traced.bind_of_ok (Repository.askList_eq listsUntracked arePaths)]
    dsimp only
    rw [Traced.bind_of_ok (Repository.ask_eq tellsBase),
      Traced.bind_of_ok (Repository.ask_eq listsRecords), ChangedFiles.ofFields_written wellFormed]
    rfl
  · have isEntry := List.mem_reverse.mp
      (ChangedFiles.mem_of_lookup ((found _).symm.trans (ChangedFiles.lookup_of_mem nodup member)))
    rcases List.mem_append.mp isEntry with ofRecord | isAdded
    · obtain ⟨change, -, same⟩ := List.mem_map.mp ofRecord
      exact ⟨change.1, (congrArg Prod.fst same).symm⟩
    · obtain ⟨path, -, same⟩ := List.mem_map.mp isAdded
      exact ⟨path, (congrArg Prod.fst same).symm⟩
  · calc
      (ChangedFiles.putAll {} entries).find? path
        = ChangedFiles.lookup (some path) entries.reverse := found (some path)
      _ = (if path ∈ untracked then some ⟨.added, none⟩ else none).or
            (DiffRecord.last? mergeBase.trim path records) := by
          rw [List.reverse_append, ChangedFiles.lookup_append, ChangedFiles.lookup_added,
            ChangedFiles.lookup_changes]
      _ = _ := by split_ifs <;> rfl

/-- A file that was renamed to the path of a changed one, one that was deleted and is there again
without being tracked, and one whose type changed. -/
def mixedRecords : List DiffRecord :=
  [.single 'M' "a", .moved false "100" "b" "a", .single 'D' "c", .single 'T' "d"]

/-- A repository with these records. -/
def mixedRepository : Repository where
  directory := "/repo"
  outcome arguments :=
    if arguments = untrackedArguments then .finished 0 (Text.ended 0 ["c"]) []
    else if arguments = ["merge-base", "main", "HEAD"] then .finished 0 "f00\n" []
    else if arguments = diffArguments "f00" then .finished 0 (DiffRecord.written mixedRecords) []
    else .finished 1 [] []

theorem changedFiles_of_records_mixed :
    (∀ record ∈ mixedRecords, record.WellFormed) ∧
      mixedRepository.Answers untrackedArguments (Text.ended 0 ["c"]) ∧
      mixedRepository.Answers ["merge-base", "main", "HEAD"] "f00\n" ∧
      mixedRepository.Answers (diffArguments "f00") (DiffRecord.written mixedRecords) ∧
      ∃ changed : ChangedFiles,
        (mixedRepository.changedFiles (some "main")).result = .ok changed ∧
        changed.find? "a" = some ⟨.renamed, some ⟨"f00", some "b"⟩⟩ ∧
        changed.find? "b" = none ∧
        changed.find? "c" = some ⟨.added, none⟩ ∧
        changed.find? "d" = some ⟨.modified, some ⟨"f00", some "d"⟩⟩ := by
  have wellFormed : ∀ record ∈ mixedRecords, record.WellFormed := by
    intro record member
    refine ⟨?_, fun status path same => ?_⟩
    · revert record
      decide
    · subst same
      simp only [mixedRecords, List.mem_cons, DiffRecord.single.injEq, reduceCtorEq, false_or,
        List.not_mem_nil, or_false] at member
      obtain ⟨rfl, -⟩ | ⟨rfl, -⟩ | ⟨rfl, -⟩ := member <;> decide
  have listsUntracked : mixedRepository.Answers untrackedArguments (Text.ended 0 ["c"]) :=
    ⟨[], by decide⟩
  have tellsBase : mixedRepository.Answers ["merge-base", "main", "HEAD"] "f00\n" :=
    ⟨[], by decide⟩
  have listsRecords : mixedRepository.Answers (diffArguments "f00")
      (DiffRecord.written mixedRecords) := ⟨[], by decide⟩
  obtain ⟨changed, asks, -, -, finds⟩ := changedFiles_of_records wellFormed (by decide)
    listsUntracked tellsBase listsRecords
  exact ⟨wellFormed, listsUntracked, tellsBase, listsRecords, changed, by rw [asks],
    (finds "a").trans (by decide), (finds "b").trans (by decide), (finds "c").trans (by decide),
    (finds "d").trans (by decide)⟩

end Git

end SourceLint
