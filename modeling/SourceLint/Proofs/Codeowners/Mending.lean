/-
This file says what becomes of a line when its owners are put right: the owners that may stay do so
in their order, the missing ones follow the last of them, and the rest of the line is left as it is.
The replacements for the line give exactly this, wherever in a text it stands, although some of them
may end where the next one begins.
-/
import SourceLint.Proofs.Check.Codeowners
import SourceLint.Proofs.Lines.Joined

namespace SourceLint.Codeowners

/-! ### Taking owners out -/

theorem le_start_of_mem_ownersAt {position : Nat} {entries : List Entry} {owner : Owner}
    (member : owner ∈ ownersAt position entries) : position ≤ owner.spanWithBlanks.start := by
  induction entries generalizing position with
  | nil => cases member
  | cons entry entries inductionHypothesis =>
    rw [ownersAt] at member
    rcases List.mem_cons.mp member with rfl | later
    · exact Nat.le_refl _
    · have := inductionHypothesis later
      omega

/-- The pass from the left over owners of which some are taken out writes the others. -/
theorem splice_removals (stays : Text → Bool) (entries : List Entry) (above below : Text)
    (more : List Replacement) (beyond : ∀ replacement ∈ more,
      above.length + (written entries).length ≤ replacement.span.start) :
    Linter.splice (above ++ (written entries ++ below)) above.length
        (((ownersAt above.length entries).filter fun owner => !stays owner.name).map Owner.removal ++
          more) =
      written (entries.filter fun entry => stays entry.name) ++
        Linter.splice (above ++ (written entries ++ below))
          (above.length + (written entries).length) more := by
  induction entries generalizing above with
  | nil => rfl
  | cons entry entries inductionHypothesis =>
    have whole : above ++ (written (entry :: entries) ++ below) =
        (above ++ entry.text) ++ (written entries ++ below) := by
      rw [written_cons]
      simp only [List.append_assoc]
    have length : (above ++ entry.text).length = above.length + entry.text.length :=
      List.length_append
    have total : above.length + (written (entry :: entries)).length =
        (above ++ entry.text).length + (written entries).length := by
      rw [written_cons, List.length_append, length, Nat.add_assoc]
    rw [total] at beyond ⊢
    have others := inductionHypothesis (above ++ entry.text) beyond
    rw [whole, ownersAt]
    cases keeps : stays entry.name with
    | true =>
      have behind : ∀ replacement ∈ (((ownersAt (above ++ entry.text).length entries).filter
          fun owner => !stays owner.name).map Owner.removal) ++ more,
            (above ++ entry.text).length ≤ replacement.span.start := by
        intro replacement member
        rcases List.mem_append.mp member with isRemoval | isMore
        · obtain ⟨owner, isOwner, rfl⟩ := List.mem_map.mp isRemoval
          exact le_start_of_mem_ownersAt (List.mem_filter.mp isOwner).1
        · exact Nat.le_trans (Nat.le_add_right _ _) (beyond replacement isMore)
      have slice : Text.slice ((above ++ entry.text) ++ (written entries ++ below)) above.length
          (above ++ entry.text).length = entry.text := by
        rw [length, List.append_assoc]
        exact Text.slice_append _ _ _
      rw [List.filter_cons_of_neg (by simp [keeps]), ← length,
        List.filter_cons_of_pos (p := fun entry : Entry => stays entry.name) keeps, written_cons,
        Linter.splice_of_le _ _ (above ++ entry.text).length _ (by rw [length]; omega)
          fun replacement isFirst => behind replacement (List.mem_of_head? isFirst),
        slice, others]
      exact (List.append_assoc _ _ _).symm
    | false =>
      rw [List.filter_cons_of_pos (by simp [keeps]),
        List.filter_cons_of_neg (p := fun entry : Entry => stays entry.name) (by simp [keeps]),
        List.map_cons, List.cons_append, Linter.splice, ← length, ← others, Owner.removal,
        Text.slice_self, List.nil_append, List.nil_append]

/-! ### A line put right -/

namespace Requirement

variable (project : Text) (requirement : Requirement)

/-- Whether an owner stays on the line. -/
def keeps (name : Text) : Bool :=
  requirement.allowsExtra || (requirement.ownerNames project).contains name

/-- The owners that a line lacks. -/
def lacking (entries : List Entry) : List Text :=
  (requirement.ownerNames project).filter fun name => !(entries.map Entry.name).contains name

/-- The owners of a line put right: those that stay, in their order, and behind them the ones that
the line lacks. -/
def mended (entries : List Entry) : List Entry :=
  (entries.filter fun entry => requirement.keeps project entry.name) ++
    (requirement.lacking project entries).map Entry.spaced

/-- A requirement that can be met: its file and the owners in the project are words without a
carriage return, and there is an owner. -/
structure CanBeMet : Prop where
  file : IsWord requirement.file ∧ 0x0D ∉ requirement.file
  owners : ∀ name ∈ requirement.ownerNames project, IsWord name ∧ 0x0D ∉ name
  notEmpty : requirement.owners ≠ []

instance : Decidable (requirement.CanBeMet project) :=
  decidable_of_iff (_ ∧ _ ∧ _)
    ⟨fun holds => ⟨holds.1, holds.2.1, holds.2.2⟩,
      fun canBeMet => ⟨canBeMet.file, canBeMet.owners, canBeMet.notEmpty⟩⟩

end Requirement

/-- How a line changes: one that gives no required file owners stays as it is, and one that does has
its owners put right. -/
inductive Mends (project : Text) (requirements : List Requirement) : Text → Text → Prop
  | other {line : Text} (unnamed : ∀ file entries rest, Assigns line file entries rest →
      ∀ requirement ∈ requirements, requirement.file ≠ file) : Mends project requirements line line
  | required {line rest : Text} {entries : List Entry} {requirement : Requirement}
      (member : requirement ∈ requirements) (assigns : Assigns line requirement.file entries rest) :
      Mends project requirements line
        (requirement.file ++ (written (requirement.mended project entries) ++ rest))

/-! ### The replacements for a line -/

/-- The replacements for a line that begins at a position. -/
def lineReplacements (project : Text) (requirements : List Requirement) (line : Text)
    (position : Nat) : List Replacement :=
  match Assignment.ofLine? line position with
  | none => []
  | some assignment =>
    match requirementFor? requirements assignment with
    | none => []
    | some requirement => ownerReplacements project requirement assignment

variable {project : Text}

theorem written_append (left right : List Entry) :
    written (left ++ right) = written left ++ written right := List.flatMap_append

/-- The replacement that adds owners, if there are any to add. -/
def additions (position : Nat) (names : List Text) : List Replacement :=
  if names.isEmpty then [] else [⟨.point position, written (names.map Entry.spaced)⟩]

theorem splice_additions (content : Text) (position : Nat) (names : List Text)
    (more : List Replacement) :
    Linter.splice content position (additions position names ++ more) =
      written (names.map Entry.spaced) ++ Linter.splice content position more := by
  cases names with
  | nil => rfl
  | cons name names =>
    rw [additions, if_neg (by simp), List.singleton_append, Linter.splice, Span.point,
      Text.slice_self, List.nil_append]

theorem ownerReplacements_assignmentAt (requirement : Requirement) (position : Nat) (file : Text)
    {entries : List Entry} (notEmpty : entries ≠ []) :
    ownerReplacements project requirement (assignmentAt position file entries) =
      ((ownersAt (position + file.length) entries).filter
          fun owner => !requirement.keeps project owner.name).map Owner.removal ++
        additions (position + file.length + (written entries).length)
          (requirement.lacking project entries) := by
  obtain ⟨last, isLast, stops⟩ := getLast?_ownersAt (position + file.length) notEmpty
  have extra : (if requirement.allowsExtra then []
      else (ownersAt (position + file.length) entries).filter fun owner =>
        !(requirement.ownerNames project).contains owner.name) =
      (ownersAt (position + file.length) entries).filter
        fun owner => !requirement.keeps project owner.name := by
    cases allows : requirement.allowsExtra <;> simp [Requirement.keeps, allows]
  have spaced (names : List Text) :
      names.flatMap (fun name => (" " : Text) ++ name) = written (names.map Entry.spaced) := by
    rw [written, List.flatMap_map]
    rfl
  rw [ownerReplacements]
  simp only [assignmentAt, isLast, extra, stops, map_name_ownersAt, spaced]
  rw [additions, Requirement.lacking]
  split
  · exact (List.append_nil _).symm
  · rfl

/-- The replacements put the owners of a line right. -/
theorem Assigns.splice_eq {line file rest : Text} {entries : List Entry}
    (assigns : Assigns line file entries rest) (requirement : Requirement) (above below : Text)
    (more : List Replacement)
    (beyond : ∀ replacement ∈ more, above.length + line.length ≤ replacement.span.start) :
    Linter.splice (above ++ (line ++ below)) above.length
        (ownerReplacements project requirement (assignmentAt above.length file entries) ++ more) =
      (file ++ (written (requirement.mended project entries) ++ rest)) ++
        Linter.splice (above ++ (line ++ below)) (above.length + line.length) more := by
  have whole : above ++ (line ++ below) =
      (above ++ file) ++ (written entries ++ (rest ++ below)) := by
    rw [assigns.whole]
    simp only [List.append_assoc]
  have first : (above ++ file).length = above.length + file.length := List.length_append
  have length : above.length + line.length =
      (above ++ file).length + (written entries).length + rest.length := by
    rw [assigns.whole, first]
    simp only [List.length_append]
    omega
  have atOwners : ∀ replacement ∈ additions ((above ++ file).length + (written entries).length)
      (requirement.lacking project entries) ++ more,
      (above ++ file).length + (written entries).length ≤ replacement.span.start := by
    intro replacement member
    rcases List.mem_append.mp member with isAddition | isMore
    · rw [additions] at isAddition
      split at isAddition
      · cases isAddition
      · cases List.mem_singleton.mp isAddition
        exact Nat.le_refl _
    · have := beyond replacement isMore
      omega
  have behindFile : ∀ replacement ∈ ((ownersAt (above ++ file).length entries).filter
      fun owner => !requirement.keeps project owner.name).map Owner.removal ++
        (additions ((above ++ file).length + (written entries).length)
          (requirement.lacking project entries) ++ more),
      (above ++ file).length ≤ replacement.span.start := by
    intro replacement member
    rcases List.mem_append.mp member with isRemoval | isLater
    · obtain ⟨owner, isOwner, rfl⟩ := List.mem_map.mp isRemoval
      exact le_start_of_mem_ownersAt (List.mem_filter.mp isOwner).1
    · exact Nat.le_trans (Nat.le_add_right _ _) (atOwners replacement isLater)
  have fileSlice : Text.slice (above ++ (line ++ below)) above.length (above ++ file).length =
      file := by
    rw [whole, first, List.append_assoc]
    exact Text.slice_append _ _ _
  have restSlice : Text.slice (above ++ (line ++ below))
      ((above ++ file).length + (written entries).length) (above.length + line.length) = rest := by
    have behind : above ++ (line ++ below) =
        (above ++ file ++ written entries) ++ (rest ++ below) := by
      rw [whole, List.append_assoc (above ++ file)]
    rw [behind, length, ← List.length_append]
    exact Text.slice_append _ _ _
  rw [ownerReplacements_assignmentAt requirement _ _ assigns.notEmpty, ← first, List.append_assoc,
    Linter.splice_of_le _ _ (above ++ file).length _ (by rw [first]; omega)
      fun replacement isFirst => behindFile replacement (List.mem_of_head? isFirst),
    fileSlice]
  have owners := splice_removals (requirement.keeps project) entries (above ++ file) (rest ++ below)
    _ atOwners
  rw [← whole, splice_additions, Linter.splice_of_le _ _ (above.length + line.length) more
    (by rw [length]; omega) fun replacement isFirst => beyond replacement
      (List.mem_of_head? isFirst), restSlice] at owners
  rw [owners, Requirement.mended, written_append]
  simp only [List.append_assoc]

/-! ### Any line -/

variable (requirements : List Requirement)

theorem requirementFor?_eq_some {requirement : Requirement} {assignment : Assignment}
    (isFor : requirementFor? requirements assignment = some requirement) :
    requirement ∈ requirements ∧ requirement.file = assignment.file :=
  ⟨List.mem_of_find?_eq_some isFor, by simpa using List.find?_some isFor⟩

theorem requirementFor?_eq_none_iff {assignment : Assignment} :
    requirementFor? requirements assignment = none ↔
      ∀ requirement ∈ requirements, requirement.file ≠ assignment.file := by
  rw [requirementFor?, List.find?_eq_none]
  simp

/-- With no two requirements about one file, the first one about a file is the only one. -/
theorem requirementFor?_of_mem (distinct : (requirements.map Requirement.file).Nodup)
    {requirement : Requirement} (member : requirement ∈ requirements) {assignment : Assignment}
    (isAbout : requirement.file = assignment.file) :
    requirementFor? requirements assignment = some requirement := by
  cases isFor : requirementFor? requirements assignment with
  | none => exact absurd isAbout ((requirementFor?_eq_none_iff _).mp isFor requirement member)
  | some other =>
    obtain ⟨isMember, same⟩ := requirementFor?_eq_some _ isFor
    rw [List.inj_on_of_nodup_map distinct isMember member (same.trans isAbout.symm)]

/-- What the replacements for a line make of it, wherever it stands. -/
theorem exists_mends (line : Text) :
    ∃ mended, Mends project requirements line mended ∧
      (∀ position, ∀ replacement ∈ lineReplacements project requirements line position,
        position ≤ replacement.span.start) ∧
      ∀ (above below : Text) (more : List Replacement),
        (∀ replacement ∈ more, above.length + line.length ≤ replacement.span.start) →
        Linter.splice (above ++ (line ++ below)) above.length
            (lineReplacements project requirements line above.length ++ more) =
          mended ++ Linter.splice (above ++ (line ++ below)) (above.length + line.length) more := by
  by_cases named : ∃ file entries rest, Assigns line file entries rest ∧
      ∃ requirement ∈ requirements, requirement.file = file
  · obtain ⟨file, entries, rest, assigns, requirement, member, isAbout⟩ := named
    obtain ⟨requirement, isFor⟩ : ∃ requirement, ∀ position,
        requirementFor? requirements (assignmentAt position file entries) = some requirement := by
      cases isFor : requirementFor? requirements (assignmentAt 0 file entries) with
      | none => exact absurd isAbout ((requirementFor?_eq_none_iff _).mp isFor requirement member)
      | some requirement => exact ⟨requirement, fun _ => isFor⟩
    obtain ⟨isMember, rfl⟩ := requirementFor?_eq_some _ (isFor 0)
    have proposed (position : Nat) : lineReplacements project requirements line position =
        ownerReplacements project requirement
          (assignmentAt position requirement.file entries) := by
      simp only [lineReplacements, assigns.ofLine?_eq, isFor position]
    refine ⟨_, .required isMember assigns, fun position replacement isProposed => ?_,
      fun above below more beyond => ?_⟩
    · have within := Assignment.within_of_ofLine? ⟨position, line, none⟩ _
        (assigns.ofLine?_eq position)
      rw [proposed] at isProposed
      exact (within.bounds project requirement replacement isProposed).1
    · rw [proposed]
      exact assigns.splice_eq requirement above below more beyond
  · have unnamed : ∀ file entries rest, Assigns line file entries rest →
        ∀ requirement ∈ requirements, requirement.file ≠ file :=
      fun file entries rest assigns requirement member isAbout =>
        named ⟨file, entries, rest, assigns, requirement, member, isAbout⟩
    have silent (position : Nat) : lineReplacements project requirements line position = [] := by
      rw [lineReplacements]
      cases reads : Assignment.ofLine? line position with
      | none => rfl
      | some assignment =>
        obtain ⟨file, entries, rest, assigns, rfl⟩ := exists_assigns reads
        have noRequirement : requirementFor? requirements (assignmentAt position file entries) =
            none := (requirementFor?_eq_none_iff _).mpr (unnamed file entries rest assigns)
        simp only [noRequirement]
    refine ⟨line, .other unnamed, fun position replacement isProposed => ?_,
      fun above below more beyond => ?_⟩
    · rw [silent] at isProposed
      cases isProposed
    · rw [silent, List.nil_append, Linter.splice_of_le _ _ (above.length + line.length) more
        (Nat.le_add_right _ _) fun replacement isFirst => beyond replacement
          (List.mem_of_head? isFirst), Text.slice_append]

/-! ### What holds of a line put right -/

theorem Entry.named_eq_mem {entries : List Entry} {name : Text} :
    (entries.map Entry.name).contains name = true ↔ ∃ entry ∈ entries, entry.name = name := by
  simp

namespace Requirement

variable {requirement : Requirement}

theorem keeps_of_mem {name : Text} (member : name ∈ requirement.ownerNames project) :
    requirement.keeps project name = true := by
  simp [keeps, member]

theorem keeps_of_mem_mended {entries : List Entry} {entry : Entry}
    (member : entry ∈ requirement.mended project entries) :
    requirement.keeps project entry.name = true := by
  rcases List.mem_append.mp member with stays | isNew
  · exact (List.mem_filter.mp stays).2
  · obtain ⟨name, isLacking, rfl⟩ := List.mem_map.mp isNew
    exact keeps_of_mem (List.mem_filter.mp isLacking).1

theorem exists_mem_mended {entries : List Entry} {name : Text}
    (member : name ∈ requirement.ownerNames project) :
    ∃ entry ∈ requirement.mended project entries, entry.name = name := by
  by_cases present : (entries.map Entry.name).contains name = true
  · obtain ⟨entry, isEntry, rfl⟩ := Entry.named_eq_mem.mp present
    exact ⟨entry, List.mem_append_left _ (List.mem_filter.mpr ⟨isEntry, keeps_of_mem member⟩), rfl⟩
  · refine ⟨Entry.spaced name, List.mem_append_right _ (List.mem_map_of_mem ?_), rfl⟩
    exact List.mem_filter.mpr ⟨member, by simpa using present⟩

theorem mended_nil : requirement.mended project [] =
    (requirement.ownerNames project).map Entry.spaced := by
  simp [mended, lacking]

/-- A line put right needs no replacements. -/
theorem ownerReplacements_mended (canBeMet : requirement.CanBeMet project) (position : Nat)
    (file : Text) (entries : List Entry) :
    ownerReplacements project requirement
      (assignmentAt position file (requirement.mended project entries)) = [] := by
  obtain ⟨template, templates, some⟩ := List.exists_cons_of_ne_nil canBeMet.notEmpty
  have first : template.name project ∈ requirement.ownerNames project := by
    rw [ownerNames, some]
    exact List.mem_cons_self
  obtain ⟨entry, isEntry, -⟩ : ∃ entry ∈ requirement.mended project entries, entry.name = _ :=
    exists_mem_mended first
  have complete : requirement.lacking project (requirement.mended project entries) = [] := by
    refine List.filter_eq_nil_iff.mpr fun name member => ?_
    rw [Entry.named_eq_mem.mpr (exists_mem_mended member)]
    decide
  rw [ownerReplacements_assignmentAt requirement _ _ (List.ne_nil_of_mem isEntry), complete]
  refine List.append_eq_nil_iff.mpr ⟨List.map_eq_nil_iff.mpr (List.filter_eq_nil_iff.mpr ?_), rfl⟩
  intro owner isOwner
  have isName : owner.name ∈ (requirement.mended project entries).map Entry.name := by
    rw [← map_name_ownersAt (position + file.length)]
    exact List.mem_map_of_mem isOwner
  obtain ⟨entry, isEntry, same⟩ := List.mem_map.mp isName
  rw [← same, keeps_of_mem_mended isEntry]
  decide

theorem isOwner_of_mem_mended (canBeMet : requirement.CanBeMet project) {entries : List Entry}
    (areOwners : ∀ entry ∈ entries, entry.IsOwner) :
    ∀ entry ∈ requirement.mended project entries, entry.IsOwner := by
  intro entry member
  rcases List.mem_append.mp member with stays | isNew
  · exact areOwners entry (List.mem_filter.mp stays).1
  · obtain ⟨name, isLacking, rfl⟩ := List.mem_map.mp isNew
    exact Entry.isOwner_spaced (canBeMet.owners name (List.mem_filter.mp isLacking).1).1

/-- A line put right gives the file its owners. -/
theorem assigns_mended (canBeMet : requirement.CanBeMet project) {line rest : Text}
    {entries : List Entry} (assigns : Assigns line requirement.file entries rest) :
    Assigns (requirement.file ++ (written (requirement.mended project entries) ++ rest))
      requirement.file (requirement.mended project entries) rest := by
  obtain ⟨template, templates, some⟩ := List.exists_cons_of_ne_nil canBeMet.notEmpty
  have first : template.name project ∈ requirement.ownerNames project := by
    rw [ownerNames, some]
    exact List.mem_cons_self
  obtain ⟨entry, isEntry, -⟩ : ∃ entry ∈ requirement.mended project entries, entry.name = _ :=
    exists_mem_mended first
  exact ⟨rfl, assigns.isWord, List.ne_nil_of_mem isEntry,
    isOwner_of_mem_mended canBeMet assigns.areOwners, assigns.ends⟩

end Requirement

/-- The requirement about the file that a line gives owners. -/
def requirementOn (requirements : List Requirement) (line : Text) : Option Requirement :=
  (Assignment.ofLine? line 0).bind (requirementFor? requirements)

theorem requirementOn_of_assigns {line file rest : Text} {entries : List Entry}
    (assigns : Assigns line file entries rest) (position : Nat) :
    requirementOn requirements line =
      requirementFor? requirements (assignmentAt position file entries) := by
  rw [requirementOn, assigns.ofLine?_eq]
  rfl

theorem requirementOn_eq (line : Text) (position : Nat) :
    (Assignment.ofLine? line position).bind (requirementFor? requirements) =
      requirementOn requirements line := by
  cases reads : Assignment.ofLine? line position with
  | none =>
    cases again : Assignment.ofLine? line 0 with
    | none => rw [requirementOn, again]
    | some assignment =>
      obtain ⟨file, entries, rest, assigns, -⟩ := exists_assigns again
      rw [assigns.ofLine?_eq] at reads
      cases reads
  | some assignment =>
    obtain ⟨file, entries, rest, assigns, rfl⟩ := exists_assigns reads
    exact (requirementOn_of_assigns requirements assigns position).symm

namespace Mends

variable {requirements} {line changed : Text} (mends : Mends project requirements line changed)

include mends

theorem eq_nil_iff : changed = [] ↔ line = [] := by
  cases mends with
  | other => exact Iff.rfl
  | required _ assigns =>
    have some := assigns.isWord.notEmpty
    rw [assigns.whole]
    simp [some]

theorem oneLine (canBeMet : ∀ requirement ∈ requirements, requirement.CanBeMet project)
    (isOneLine : line.OneLine) : changed.OneLine := by
  cases mends with
  | other => exact isOneLine
  | @required rest entries requirement member assigns =>
    have areOneLine := fun name isName =>
      ((canBeMet requirement member).owners name isName).1.oneLine
        ((canBeMet requirement member).owners name isName).2
    have isSpace : Text.OneLine " " := by decide
    rw [assigns.whole] at isOneLine
    obtain ⟨isFile, isRest⟩ := List.forall_mem_append.mp isOneLine
    obtain ⟨isOwners, isRest⟩ := List.forall_mem_append.mp isRest
    refine Text.OneLine.append isFile (Text.OneLine.append (fun unit inOwners => ?_) isRest)
    obtain ⟨entry, isEntry, inEntry⟩ := List.mem_flatMap.mp inOwners
    rcases List.mem_append.mp isEntry with stays | isNew
    · exact isOwners unit (List.mem_flatMap.mpr ⟨entry, (List.mem_filter.mp stays).1, inEntry⟩)
    · obtain ⟨name, isLacking, rfl⟩ := List.mem_map.mp isNew
      exact isSpace.append (areOneLine name (List.mem_filter.mp isLacking).1) unit inEntry

variable (canBeMet : ∀ requirement ∈ requirements, requirement.CanBeMet project)

include canBeMet

/-- A line put right is about the same required file. -/
theorem requirementOn_eq : requirementOn requirements changed = requirementOn requirements line := by
  cases mends with
  | other => rfl
  | required member assigns =>
    rw [requirementOn_of_assigns requirements assigns 0, requirementOn_of_assigns requirements
      (Requirement.assigns_mended (canBeMet _ member) assigns) 0]
    rfl

/-- A line put right gives no warning on owners. -/
theorem ownersWarning?_eq_none (distinct : (requirements.map Requirement.file).Nodup)
    {position : Nat} {assignment : Assignment}
    (reads : Assignment.ofLine? changed position = some assignment) :
    ownersWarning? project requirements assignment = none := by
  cases mends with
  | other unnamed =>
    obtain ⟨file, entries, rest, assigns, rfl⟩ := exists_assigns reads
    have noRequirement : requirementFor? requirements (assignmentAt position file entries) = none :=
      (requirementFor?_eq_none_iff _).mpr (unnamed file entries rest assigns)
    rw [ownersWarning?, noRequirement]
    rfl
  | @required rest entries requirement member assigns =>
    have changedAssigns := Requirement.assigns_mended (canBeMet requirement member) assigns
    rw [changedAssigns.ofLine?_eq] at reads
    cases reads
    have isFor : requirementFor? requirements (assignmentAt position requirement.file
        (requirement.mended project entries)) = some requirement :=
      requirementFor?_of_mem requirements distinct member rfl
    have silent := Requirement.ownerReplacements_mended (canBeMet requirement member) position
      requirement.file entries
    rw [ownersWarning?, isFor]
    simp [silent]

end Mends

/-! ### A required line -/

namespace Requirement

variable {requirement : Requirement} (canBeMet : requirement.CanBeMet project)

/-- The text of the line as it is written into an owners file. -/
def lineText (project : Text) (requirement : Requirement) : Text :=
  requirement.file ++ written ((requirement.ownerNames project).map Entry.spaced)

include canBeMet

theorem ownerNames_ne_nil : requirement.ownerNames project ≠ [] := by
  rw [ownerNames, Ne, List.map_eq_nil_iff]
  exact canBeMet.notEmpty

theorem assigns_lineText : Assigns (requirement.lineText project) requirement.file
    ((requirement.ownerNames project).map Entry.spaced) [] := by
  refine ⟨by rw [List.append_nil]; rfl, canBeMet.file.1, ?_, fun entry member => ?_, endsOwners_nil⟩
  · rw [Ne, List.map_eq_nil_iff]
    exact ownerNames_ne_nil canBeMet
  · obtain ⟨name, isName, rfl⟩ := List.mem_map.mp member
    exact Entry.isOwner_spaced (canBeMet.owners name isName).1

theorem oneLine_lineText : (requirement.lineText project).OneLine := by
  have isSpace : Text.OneLine " " := by decide
  refine (canBeMet.file.1.oneLine canBeMet.file.2).append fun unit inOwners => ?_
  obtain ⟨entry, isEntry, inEntry⟩ := List.mem_flatMap.mp inOwners
  obtain ⟨name, isName, rfl⟩ := List.mem_map.mp isEntry
  exact isSpace.append ((canBeMet.owners name isName).1.oneLine (canBeMet.owners name isName).2) unit
    inEntry

/-- The line that is added is this text with a line feed. -/
theorem line_eq : requirement.line project = requirement.lineText project ++ [0x0A] := by
  have spaced (name : Text) (names : List Text) :
      (" " : Text) ++ Text.join " " (name :: names) = written ((name :: names).map Entry.spaced) := by
    induction names generalizing name with
    | nil => exact (List.append_nil _).symm
    | cons next names inductionHypothesis =>
      rw [Text.join, List.map_cons, written_cons,
        ← inductionHypothesis, Entry.text, Entry.spaced]
      · simp only [List.append_assoc]
      · exact List.cons_ne_nil _ _
  obtain ⟨name, names, same⟩ := List.exists_cons_of_ne_nil (ownerNames_ne_nil canBeMet)
  rw [line, lineText, same, ← spaced]
  simp only [List.append_assoc]
  rfl

end Requirement

end SourceLint.Codeowners
