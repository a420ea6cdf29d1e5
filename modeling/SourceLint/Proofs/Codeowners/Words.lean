/-
This file says what a line of an owners file is written with: a file pattern and owners, each of them
a word, with blanks before every owner and anything behind the last one that begins no further owner.
The reading of lines finds exactly this. So an owner can be taken out with its blanks, or put in
behind the last one, and the line is read with the other owners as before.
-/
import Mathlib.Data.List.TakeWhile
import SourceLint.Check.Codeowners
import SourceLint.Proofs.Text.Cut

namespace SourceLint.Codeowners

/-! ### Words -/

/-- A text is written with units that end no word, and with a backslash before each unit that would.
-/
inductive Spelled : Text → Prop
  | nil : Spelled []
  | plain {unit : CodeUnit} {rest : Text} (notEscape : unit ≠ '\\') (notComment : unit ≠ '#')
      (notBlank : unit.isBlank = false) (more : Spelled rest) : Spelled (unit :: rest)
  | escaped {unit : CodeUnit} {rest : Text} (notFeed : unit ≠ 0x0A) (more : Spelled rest) :
      Spelled (('\\' : CodeUnit) :: unit :: rest)

/-- A word that names a file pattern or an owner. -/
structure IsWord (text : Text) : Prop where
  notEmpty : text ≠ []
  spelled : Spelled text

theorem wordLength_le (text : Text) : wordLength text ≤ text.length := by
  fun_induction wordLength text <;> simp_all <;> omega

theorem wordLength_plain {unit : CodeUnit} (notEscape : unit ≠ '\\') (notComment : unit ≠ '#')
    (notBlank : unit.isBlank = false) (rest : Text) :
    wordLength (unit :: rest) = 1 + wordLength rest := by
  cases rest <;> simp [wordLength, notEscape, notComment, notBlank]

theorem wordLength_escaped {unit : CodeUnit} (notFeed : unit ≠ 0x0A) (rest : Text) :
    wordLength (('\\' : CodeUnit) :: unit :: rest) = 2 + wordLength rest := by
  rw [wordLength, if_pos rfl, if_neg notFeed]

theorem wordLength_blank {unit : CodeUnit} (isBlank : unit.isBlank = true) (rest : Text) :
    wordLength (unit :: rest) = 0 := by
  have notEscape : unit ≠ '\\' := by
    rintro rfl
    exact absurd isBlank (by decide)
  cases rest <;> simp [wordLength, notEscape, isBlank]

/-- A word goes on with what follows it. -/
theorem Spelled.wordLength_append {word : Text} (spelled : Spelled word) (rest : Text) :
    wordLength (word ++ rest) = word.length + wordLength rest := by
  induction spelled with
  | nil => exact (Nat.zero_add _).symm
  | plain notEscape notComment notBlank _ inductionHypothesis =>
    rw [List.cons_append, wordLength_plain notEscape notComment notBlank, inductionHypothesis,
      List.length_cons]
    omega
  | escaped notFeed _ inductionHypothesis =>
    rw [List.cons_append, List.cons_append, wordLength_escaped notFeed, inductionHypothesis,
      List.length_cons, List.length_cons]
    omega

/-- What is read as a word is spelled as one, and no word begins behind it. -/
theorem spelled_take_wordLength (text : Text) :
    Spelled (text.take (wordLength text)) ∧ wordLength (text.drop (wordLength text)) = 0 := by
  fun_induction wordLength text with
  | case1 => exact ⟨.nil, rfl⟩
  | case2 unit ends => exact ⟨.nil, by simp [wordLength, ends]⟩
  | case3 unit goesOn =>
    simp only [Bool.or_eq_true, decide_eq_true_eq, not_or, Bool.not_eq_true] at goesOn
    exact ⟨.plain goesOn.1.1 goesOn.1.2 goesOn.2 .nil, rfl⟩
  | case4 => exact ⟨.nil, by simp [wordLength]⟩
  | case5 next rest notFeed inductionHypothesis =>
    rw [Nat.add_comm]
    exact ⟨.escaped notFeed inductionHypothesis.1, inductionHypothesis.2⟩
  | case6 unit next rest notEscape ends => exact ⟨.nil, by simp [wordLength, notEscape, ends]⟩
  | case7 unit next rest notEscape goesOn inductionHypothesis =>
    simp only [Bool.or_eq_true, decide_eq_true_eq, not_or, Bool.not_eq_true] at goesOn
    rw [Nat.add_comm]
    exact ⟨.plain notEscape goesOn.1 goesOn.2 inductionHypothesis.1, inductionHypothesis.2⟩

theorem isWord_take {text : Text} (some : wordLength text ≠ 0) :
    IsWord (text.take (wordLength text)) := by
  refine ⟨fun none => ?_, (spelled_take_wordLength text).1⟩
  rcases List.take_eq_nil_iff.mp none with isZero | rfl
  · exact some isZero
  · exact some rfl

/-- A text is a word if it is read as one to its end. -/
theorem isWord_iff (text : Text) : IsWord text ↔ text ≠ [] ∧ wordLength text = text.length := by
  constructor
  · intro isWord
    have whole := isWord.spelled.wordLength_append []
    rw [List.append_nil] at whole
    exact ⟨isWord.notEmpty, whole⟩
  · rintro ⟨notEmpty, whole⟩
    have spelled := (spelled_take_wordLength text).1
    rw [whole, List.take_length] at spelled
    exact ⟨notEmpty, spelled⟩

instance (text : Text) : Decidable (IsWord text) := decidable_of_iff _ (isWord_iff text).symm

/-- A line feed is in no word, and a carriage return only behind a backslash. -/
theorem IsWord.oneLine {word : Text} (isWord : IsWord word) (noReturn : 0x0D ∉ word) :
    Text.OneLine word := by
  have noFeed : 0x0A ∉ word := by
    have spelled := isWord.spelled
    clear isWord noReturn
    induction spelled with
    | nil => exact List.not_mem_nil
    | plain _ _ notBlank _ inductionHypothesis =>
      rintro (_ | ⟨_, later⟩)
      · exact absurd notBlank (by decide)
      · exact inductionHypothesis later
    | escaped notFeed _ inductionHypothesis =>
      rintro (_ | ⟨_, _ | ⟨_, later⟩⟩)
      · exact notFeed rfl
      · exact inductionHypothesis later
  intro unit member
  exact ⟨fun same => noFeed (same ▸ member), fun same => noReturn (same ▸ member)⟩

/-- A word begins with no blank. -/
theorem IsWord.head_not_isBlank {word : Text} (isWord : IsWord word) :
    ∀ unit ∈ word.head?, ¬unit.isBlank = true := by
  cases isWord.spelled with
  | nil => exact absurd rfl isWord.notEmpty
  | plain _ _ notBlank _ =>
    rintro unit ⟨⟩
    simp [notBlank]
  | escaped =>
    rintro unit ⟨⟩
    decide

theorem IsWord.wordLength_pos {word : Text} (isWord : IsWord word) (rest : Text) :
    0 < wordLength (word ++ rest) := by
  rw [isWord.spelled.wordLength_append]
  have := List.length_pos_of_ne_nil isWord.notEmpty
  omega

/-! ### Owners -/

/-- An owner as it is written: the blanks before it and its name. -/
structure Entry where
  blanks : Text
  name : Text

namespace Entry

/-- The units of an owner. -/
def text (entry : Entry) : Text := entry.blanks ++ entry.name

/-- An owner has a name, and blanks that set it off. -/
structure IsOwner (entry : Entry) : Prop where
  notEmpty : entry.blanks ≠ []
  areBlank : ∀ unit ∈ entry.blanks, unit.isBlank = true
  isWord : IsWord entry.name

/-- An owner behind one space. -/
def spaced (name : Text) : Entry := ⟨" ", name⟩

theorem isOwner_spaced {name : Text} (isWord : IsWord name) : (spaced name).IsOwner where
  notEmpty := List.cons_ne_nil _ _
  areBlank := List.forall_mem_singleton.mpr rfl
  isWord := isWord

/-- Whether a list of owners has a name. -/
def named (entries : List Entry) (name : Text) : Bool := (entries.map Entry.name).contains name

end Entry

/-- The units of owners, one after another. -/
def written (entries : List Entry) : Text := entries.flatMap Entry.text

theorem written_cons (entry : Entry) (entries : List Entry) :
    written (entry :: entries) = entry.text ++ written entries := List.flatMap_cons

/-- No further owner stands at the start of a text, and no word goes on into it. -/
def EndsOwners (text : Text) : Prop :=
  ∀ blanks word more : Text, text = blanks ++ (word ++ more) →
    (∀ unit ∈ blanks, unit.isBlank = true) → ¬IsWord word

/-- The owners in a text that begins at a position. -/
def ownersAt : Nat → List Entry → List Owner
  | _, [] => []
  | position, entry :: entries =>
    ⟨entry.name, ⟨position + entry.blanks.length, position + entry.text.length⟩,
        ⟨position, position + entry.text.length⟩⟩ ::
      ownersAt (position + entry.text.length) entries

theorem map_name_ownersAt (position : Nat) (entries : List Entry) :
    (ownersAt position entries).map Owner.name = entries.map Entry.name := by
  induction entries generalizing position with
  | nil => rfl
  | cons entry entries inductionHypothesis =>
    rw [ownersAt, List.map_cons, List.map_cons, inductionHypothesis]

theorem getLast?_ownersAt (position : Nat) {entries : List Entry} (notEmpty : entries ≠ []) :
    ∃ last, (ownersAt position entries).getLast? = some last ∧
      last.span.stop = position + (written entries).length := by
  induction entries generalizing position with
  | nil => exact absurd rfl notEmpty
  | cons entry entries inductionHypothesis =>
    rw [written_cons, List.length_append]
    cases entries with
    | nil => exact ⟨_, rfl, rfl⟩
    | cons next others =>
      obtain ⟨last, isLast, stops⟩ :=
        inductionHypothesis (position + entry.text.length) (List.cons_ne_nil _ _)
      refine ⟨last, ?_, by rw [stops, Nat.add_assoc]⟩
      rw [ownersAt, ownersAt, List.getLast?_cons_cons]
      exact isLast

theorem EndsOwners.wordLength_eq_zero {text : Text} (ends : EndsOwners text) :
    wordLength text = 0 ∧ wordLength (text.dropWhile CodeUnit.isBlank) = 0 := by
  refine ⟨Decidable.by_contra fun some => ?_, Decidable.by_contra fun some => ?_⟩
  · exact ends [] _ (text.drop (wordLength text)) (List.take_append_drop _ _).symm
      (List.forall_mem_nil _)
      (isWord_take some)
  · refine ends (text.takeWhile CodeUnit.isBlank) _
      ((text.dropWhile CodeUnit.isBlank).drop (wordLength (text.dropWhile CodeUnit.isBlank))) ?_
      (fun unit => List.mem_takeWhile_imp) (isWord_take some)
    rw [List.take_append_drop, List.takeWhile_append_dropWhile]

theorem endsOwners_of_wordLength {text : Text} (noWord : wordLength text = 0)
    (noOwner : (text.takeWhile CodeUnit.isBlank).length = 0 ∨
      wordLength (text.dropWhile CodeUnit.isBlank) = 0) : EndsOwners text := by
  rintro blanks word more rfl areBlank isWord
  have some := isWord.wordLength_pos more
  have stops : ∀ unit ∈ (word ++ more).head?, ¬unit.isBlank = true := by
    rw [List.head?_append_of_ne_nil _ isWord.notEmpty]
    exact isWord.head_not_isBlank
  cases blanks with
  | nil =>
    rw [List.nil_append] at noWord
    omega
  | cons blank blanks =>
    rw [Text.takeWhile_append_of_stops areBlank stops] at noOwner
    have dropped : (blank :: blanks ++ (word ++ more)).dropWhile CodeUnit.isBlank = word ++ more := by
      rw [List.dropWhile_append_of_pos areBlank]
      cases whole : word ++ more with
      | nil => rfl
      | cons unit others =>
        rw [whole] at stops
        exact List.dropWhile_cons_of_neg (stops unit rfl)
    rw [dropped] at noOwner
    rcases noOwner with none | none
    · cases none
    · omega

theorem endsOwners_nil : EndsOwners [] := endsOwners_of_wordLength rfl (Or.inl rfl)

/-- The owners that are written at the start of a text are read, and no others. -/
theorem ownersFrom_eq {entries : List Entry} (areOwners : ∀ entry ∈ entries, entry.IsOwner)
    {rest : Text} (ends : EndsOwners rest) {fuel : Nat} (enough : entries.length ≤ fuel)
    (position : Nat) :
    ownersFrom fuel position (written entries ++ rest) = ownersAt position entries := by
  induction entries generalizing fuel position with
  | nil =>
    cases fuel with
    | zero => rfl
    | succ fuel =>
      have stops : wordLength (rest.drop (rest.takeWhile CodeUnit.isBlank).length) = 0 := by
        rw [Text.drop_length_takeWhile]
        exact ends.wordLength_eq_zero.2
      change ownersFrom (fuel + 1) position rest = []
      simp [ownersFrom, stops]
  | cons entry entries inductionHypothesis =>
    obtain ⟨fuel, rfl⟩ := Nat.exists_eq_succ_of_ne_zero (Nat.ne_zero_of_lt enough)
    obtain ⟨⟨notEmpty, areBlank, isWord⟩, others⟩ := List.forall_mem_cons.mp areOwners
    -- behind an owner there are the blanks of the next one, or what begins no word
    have behind : wordLength (written entries ++ rest) = 0 := by
      cases entries with
      | nil => exact ends.wordLength_eq_zero.1
      | cons next entries =>
        obtain ⟨⟨nextNotEmpty, nextBlank, -⟩, -⟩ := List.forall_mem_cons.mp others
        obtain ⟨blank, blanks, same⟩ := List.exists_cons_of_ne_nil nextNotEmpty
        rw [written_cons, Entry.text, same]
        exact wordLength_blank (nextBlank blank (by simp [same])) _
    have stops : ∀ unit ∈ (entry.name ++ (written entries ++ rest)).head?, ¬unit.isBlank = true := by
      rw [List.head?_append_of_ne_nil _ isWord.notEmpty]
      exact isWord.head_not_isBlank
    have whole : written (entry :: entries) ++ rest =
        entry.blanks ++ (entry.name ++ (written entries ++ rest)) := by
      rw [written_cons, Entry.text, List.append_assoc, List.append_assoc]
    have blanksLength : (entry.blanks ++ (entry.name ++ (written entries ++ rest))).takeWhile
        CodeUnit.isBlank = entry.blanks := Text.takeWhile_append_of_stops areBlank stops
    have wordEnds : wordLength (entry.name ++ (written entries ++ rest)) = entry.name.length := by
      rw [isWord.spelled.wordLength_append, behind, Nat.add_zero]
    have notNothing : ¬(entry.blanks.length = 0 || entry.name.length = 0) = true := by
      simp [notEmpty, isWord.notEmpty]
    rw [whole, ownersFrom]
    simp only [blanksLength, List.drop_left, wordEnds, List.take_left]
    rw [if_neg notNothing, inductionHypothesis others (Nat.le_of_succ_le_succ enough), ownersAt,
      Entry.text, List.length_append, Nat.add_assoc]

/-- What is read as owners is written so. -/
theorem exists_entries {fuel : Nat} {text : Text} (enough : text.length ≤ fuel)
    (noWord : wordLength text = 0) (position : Nat) :
    ∃ entries rest, text = written entries ++ rest ∧ (∀ entry ∈ entries, entry.IsOwner) ∧
      EndsOwners rest ∧ ownersFrom fuel position text = ownersAt position entries := by
  induction fuel generalizing text position with
  | zero =>
    cases List.length_eq_zero_iff.mp (Nat.le_zero.mp enough)
    exact ⟨[], [], rfl, List.forall_mem_nil _, endsOwners_nil, rfl⟩
  | succ fuel inductionHypothesis =>
    rw [ownersFrom]
    dsimp only
    rw [Text.drop_length_takeWhile]
    have blanksWhole := List.takeWhile_append_dropWhile (p := CodeUnit.isBlank) (l := text)
    split
    case isTrue ends =>
      simp only [Bool.or_eq_true, decide_eq_true_eq] at ends
      exact ⟨[], text, rfl, List.forall_mem_nil _, endsOwners_of_wordLength noWord ends, rfl⟩
    case isFalse proper =>
      simp only [Bool.or_eq_true, decide_eq_true_eq, not_or] at proper
      generalize text.dropWhile CodeUnit.isBlank = word at blanksWhole proper ⊢
      have areBlank : ∀ unit ∈ text.takeWhile CodeUnit.isBlank, unit.isBlank = true :=
        fun unit => List.mem_takeWhile_imp
      generalize text.takeWhile CodeUnit.isBlank = blanks at blanksWhole proper areBlank ⊢
      subst blanksWhole
      have nameLength : (word.take (wordLength word)).length = wordLength word :=
        List.length_take_of_le (wordLength_le word)
      have fewer : (word.drop (wordLength word)).length ≤ fuel := by
        rw [List.length_append] at enough
        rw [List.length_drop]
        omega
      obtain ⟨entries, rest, splits, areOwners, ends, reads⟩ := inductionHypothesis fewer
        (spelled_take_wordLength word).2 (position + blanks.length + wordLength word)
      refine ⟨⟨blanks, word.take (wordLength word)⟩ :: entries, rest, ?_, ?_, ends, ?_⟩
      · rw [written_cons, Entry.text, List.append_assoc, List.append_assoc, ← splits,
          List.take_append_drop]
      · refine List.forall_mem_cons.mpr ⟨⟨?_, areBlank, isWord_take proper.2⟩, areOwners⟩
        exact fun isNil => proper.1 (List.length_eq_zero_iff.mpr isNil)
      · rw [reads, ownersAt, Entry.text, List.length_append, nameLength, Nat.add_assoc]

/-! ### Lines -/

/-- A line gives a file pattern owners. -/
structure Assigns (line file : Text) (entries : List Entry) (rest : Text) : Prop where
  whole : line = file ++ (written entries ++ rest)
  isWord : IsWord file
  notEmpty : entries ≠ []
  areOwners : ∀ entry ∈ entries, entry.IsOwner
  ends : EndsOwners rest

/-- The assignment on a line that begins at a position. -/
def assignmentAt (position : Nat) (file : Text) (entries : List Entry) : Assignment :=
  ⟨file, ⟨position, position + file.length⟩, ownersAt (position + file.length) entries⟩

theorem ownersAt_eq_nil_iff {position : Nat} {entries : List Entry} :
    ownersAt position entries = [] ↔ entries = [] := by
  cases entries <;> simp [ownersAt]

theorem length_le_written {entries : List Entry} (areOwners : ∀ entry ∈ entries, entry.IsOwner) :
    entries.length ≤ (written entries).length := by
  induction entries with
  | nil => exact Nat.zero_le _
  | cons entry entries inductionHypothesis =>
    obtain ⟨isOwner, others⟩ := List.forall_mem_cons.mp areOwners
    have some := List.length_pos_of_ne_nil isOwner.notEmpty
    have fewer := inductionHypothesis others
    rw [written_cons, Entry.text, List.length_append, List.length_append, List.length_cons]
    omega

namespace Assigns

variable {line file : Text} {entries : List Entry} {rest : Text}
  (assigns : Assigns line file entries rest)

include assigns

theorem wordLength_eq : wordLength line = file.length := by
  obtain ⟨entry, others, rfl⟩ := List.exists_cons_of_ne_nil assigns.notEmpty
  obtain ⟨notEmpty, areBlank, -⟩ := assigns.areOwners entry List.mem_cons_self
  obtain ⟨blank, blanks, same⟩ := List.exists_cons_of_ne_nil notEmpty
  rw [assigns.whole, assigns.isWord.spelled.wordLength_append, written_cons, Entry.text, same]
  simp only [List.cons_append]
  rw [wordLength_blank (areBlank blank (by simp [same]))]
  rfl

/-- What is written on the line is read. -/
theorem ofLine?_eq (position : Nat) :
    Assignment.ofLine? line position = some (assignmentAt position file entries) := by
  have some : ¬(file.length = 0 || (ownersAt (position + file.length) entries).isEmpty) = true := by
    simp [assigns.isWord.notEmpty, ownersAt_eq_nil_iff, assigns.notEmpty]
  have behind : line.drop file.length = written entries ++ rest := by
    rw [assigns.whole, List.drop_left]
  have first : line.take file.length = file := by rw [assigns.whole, List.take_left]
  have enough : entries.length ≤ line.length := by
    have fewer := length_le_written assigns.areOwners
    rw [assigns.whole, List.length_append, List.length_append]
    omega
  have owners := ownersFrom_eq assigns.areOwners assigns.ends enough (position + file.length)
  rw [Assignment.ofLine?]
  rw [assigns.wordLength_eq, behind, first, owners, if_neg some]
  rfl

end Assigns

/-- What is read on a line is written there. -/
theorem exists_assigns {line : Text} {position : Nat} {assignment : Assignment}
    (reads : Assignment.ofLine? line position = some assignment) :
    ∃ file entries rest, Assigns line file entries rest ∧
      assignment = assignmentAt position file entries := by
  have enough : (line.drop (wordLength line)).length ≤ line.length := by
    rw [List.length_drop]
    omega
  obtain ⟨entries, rest, splits, areOwners, ends, owners⟩ :=
    exists_entries enough (spelled_take_wordLength line).2 (position + wordLength line)
  rw [Assignment.ofLine?] at reads
  rw [owners] at reads
  split at reads
  case isTrue => cases reads
  case isFalse proper =>
    simp only [Bool.or_eq_true, decide_eq_true_eq, List.isEmpty_iff, not_or,
      ownersAt_eq_nil_iff] at proper
    cases reads
    have isWord := isWord_take proper.1
    refine ⟨_, entries, rest, ⟨?_, isWord, proper.2, areOwners, ends⟩, ?_⟩
    · rw [← splits, List.take_append_drop]
    · rw [assignmentAt, List.length_take_of_le (wordLength_le line)]

end SourceLint.Codeowners
