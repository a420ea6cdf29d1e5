/-
This file says which notice a search finds: the first one behind a stretch in which there is none.
The stretch may be told from the notice that ends it, since no notice begins in the one and ends in
the other: a notice has its capital letters in places of their own. So what stands before a notice
without having one goes on having none when the notice changes, and also with a tag or with one of
the lines of a license behind it.
-/
import SourceLint.Copyright.LicenseText
import SourceLint.Proofs.Copyright.Spelling
import SourceLint.Proofs.Linter.Splice

namespace SourceLint.Copyright.Notice

/-! ### Texts without a notice -/

/-- No part of a text is a notice. -/
def Free (text : Text) : Prop :=
  ∀ (notice : Notice) (written : Text), notice.Written written → ¬written <:+: text

theorem Free.of_infix {part whole : Text} (free : Free whole) (isPart : part <:+: whole) :
    Free part := fun notice written isWritten found =>
  free notice written isWritten (found.trans isPart)

/-- A text that is too short has no notice. -/
theorem free_of_length_lt (text : Text) (short : text.length < 31) : Free text :=
  fun _ _ isWritten found =>
    absurd (Nat.le_trans isWritten.length_pos found.length_le) (Nat.not_le_of_lt short)

/-- A text has no notice exactly if none is read at any position of it. -/
theorem free_iff (text : Text) : Free text ↔ ∀ offset, read? (text.drop offset) = none := by
  constructor
  · intro free offset
    cases reads : read? (text.drop offset) with
    | none => rfl
    | some notice =>
      obtain ⟨written, rest, whole, isWritten⟩ := exists_written_of_read? _ _ reads
      have isPart : written <:+: text :=
        (whole ▸ List.prefix_append written rest).isInfix.trans (List.drop_suffix _ _).isInfix
      exact absurd isPart (free notice written isWritten)
  · rintro none notice written isWritten ⟨before, rest, rfl⟩
    have reads := none before.length
    rw [List.append_assoc, List.drop_left, isWritten.read?_append] at reads
    cases reads

/-! ### Notices across a border -/

/-- A part of two texts lies in the first, in the second, or across the border. -/
theorem infix_append_cases {part left right : Text} (isPart : part <:+: left ++ right) :
    part <:+: left ∨ part <:+: right ∨
      ∃ before after, part = before ++ after ∧ before ≠ [] ∧ after ≠ [] ∧ before <:+ left ∧
        after <+: right := by
  obtain ⟨start, rest, whole⟩ := isPart
  rw [List.append_assoc] at whole
  rcases List.append_eq_append_iff.mp whole with ⟨middle, leftWhole, partWhole⟩ |
    ⟨middle, _, rightWhole⟩
  · rcases List.append_eq_append_iff.mp partWhole with ⟨end_, middleWhole, _⟩ |
      ⟨after, partWhole, rightWhole⟩
    · exact Or.inl ⟨start, end_, by rw [leftWhole, middleWhole, List.append_assoc]⟩
    · by_cases noAfter : after = []
      · exact Or.inl ⟨start, [], by rw [leftWhole, partWhole, noAfter]; simp⟩
      · by_cases noBefore : middle = []
        · exact Or.inr (Or.inl ⟨[], rest, by rw [rightWhole, partWhole, noBefore]; rfl⟩)
        · exact Or.inr (Or.inr ⟨middle, after, partWhole, noBefore, noAfter,
            ⟨start, leftWhole.symm⟩, ⟨rest, rightWhole.symm⟩⟩)
  · exact Or.inr (Or.inl ⟨middle, rest, by rw [rightWhole, List.append_assoc]⟩)

/-- A unit that no notice has. -/
def Foreign (unit : CodeUnit) : Prop :=
  isUsual unit = false ∧ (Text.ofString "Copyright").contains unit = false

instance (unit : CodeUnit) : Decidable (Foreign unit) := inferInstanceAs (Decidable (_ ∧ _))

/-- No notice goes over a foreign unit. -/
theorem Free.append_cons {left right : Text} (leftFree : Free left) (rightFree : Free right)
    (unit : CodeUnit) (foreign : Foreign unit) : Free (left ++ unit :: right) := by
  intro notice written isWritten isPart
  have notMember := isWritten.not_mem unit foreign.1 foreign.2
  have behind : ¬written <:+: unit :: right := fun isPart => by
    rcases List.infix_cons_iff.mp isPart with ⟨rest, whole⟩ | inRight
    · cases written with
      | nil => exact absurd isWritten.length_pos (by decide)
      | cons first others =>
        cases whole
        exact notMember List.mem_cons_self
    · exact rightFree notice written isWritten inRight
  rcases infix_append_cases isPart with inLeft | inRight |
    ⟨before, after, rfl, _, notEmpty, _, ⟨rest, whole⟩⟩
  · exact leftFree notice written isWritten inLeft
  · exact behind inRight
  · cases after with
    | nil => exact notEmpty rfl
    | cons first others =>
      cases whole
      exact notMember (List.mem_append_right _ List.mem_cons_self)

/-- The two ends that the name of the holder may have. -/
def nameEnds : List Text := ["ORPORATION", "orporation"]

/-- No notice ends in a text, wherever it may have begun. -/
def NoEnd (text : Text) : Prop :=
  ∀ nameEnd ∈ nameEnds, ¬nameEnd <:+: text ∧ ∀ unit ∈ text.head?, unit ∉ nameEnd

instance (text : Text) : Decidable (NoEnd text) :=
  -- The instance is given, since to decide by going over all units takes too long.
  have (nameEnd : Text) : Decidable (∀ unit ∈ text.head?, unit ∉ nameEnd) :=
    Option.decidableForallMem _
  inferInstanceAs (Decidable (∀ _ ∈ _, _))

theorem Written.exists_mem_nameEnds {notice : Notice} {text : Text}
    (written : notice.Written text) :
    ∃ before, ∃ nameEnd ∈ nameEnds, text = before ++ nameEnd := by
  obtain ⟨before, spelling, rfl⟩ := written.exists_nameEnd
  refine ⟨before, spelling.nameEnd, ?_, rfl⟩
  rw [Spelling.nameEnd, nameEnds]
  split
  · exact List.mem_cons_self
  · exact List.mem_cons_of_mem _ List.mem_cons_self

/-- What goes on after the border with a part of a notice has the end of the name in it, or begins
in the middle of that. -/
theorem Written.after_border {notice : Notice} {before after : Text}
    (written : notice.Written (before ++ after)) (notEmpty : after ≠ []) :
    ∃ nameEnd ∈ nameEnds, nameEnd <:+ after ∨ ∃ unit ∈ after.head?, unit ∈ nameEnd := by
  obtain ⟨first, nameEnd, isEnd, whole⟩ := written.exists_mem_nameEnds
  refine ⟨nameEnd, isEnd, ?_⟩
  rcases List.append_eq_append_iff.mp whole with ⟨middle, _, afterWhole⟩ | ⟨middle, _, endWhole⟩
  · exact Or.inl ⟨middle, afterWhole.symm⟩
  · cases after with
    | nil => exact absurd rfl notEmpty
    | cons unit rest =>
      exact Or.inr ⟨unit, rfl, endWhole ▸ List.mem_append_right _ List.mem_cons_self⟩

theorem Free.append_noEnd {left right : Text} (free : Free left) (noEnd : NoEnd right) :
    Free (left ++ right) := by
  intro notice written isWritten isPart
  rcases infix_append_cases isPart with inLeft | inRight |
    ⟨before, after, rfl, _, notEmpty, _, ⟨rest, rfl⟩⟩
  · exact free notice written isWritten inLeft
  · obtain ⟨before, nameEnd, isEnd, rfl⟩ := isWritten.exists_mem_nameEnds
    exact (noEnd nameEnd isEnd).1 ((List.suffix_append _ _).isInfix.trans inRight)
  · obtain ⟨nameEnd, isEnd, inAfter | ⟨unit, isFirst, isMember⟩⟩ := isWritten.after_border notEmpty
    · exact (noEnd nameEnd isEnd).1 (inAfter.isInfix.trans (List.prefix_append _ _).isInfix)
    · refine (noEnd nameEnd isEnd).2 unit ?_ isMember
      rw [Option.mem_def] at isFirst ⊢
      rw [List.head?_append, isFirst, Option.some_or]

/-- The first word of a notice does not stand in the notice again. -/
theorem Written.not_word_again {notice : Notice} {before after : Text}
    (written : notice.Written (before ++ ("Copyright" ++ after))) : before = [] := by
  by_contra notEmpty
  obtain ⟨first, others, rfl⟩ := List.exists_cons_of_ne_nil notEmpty
  obtain ⟨rest, whole, usual⟩ := written.exists_word
  -- The letter y of the second word is beyond the place of the one in the first.
  have isMember : (0x79 : CodeUnit) ∈ ((first :: others) ++ ("Copyright" ++ after)).drop 4 := by
    refine List.mem_iff_getElem?.mpr ⟨others.length, ?_⟩
    have place : 4 + others.length = (first :: others).length + 3 := by
      rw [List.length_cons]
      omega
    rw [List.getElem?_drop, place, List.getElem?_append_right (Nat.le_add_right _ _),
      Nat.add_sub_cancel_left]
    rfl
  rw [whole, List.drop_append_of_le_length (by decide), List.mem_append] at isMember
  rcases isMember with inWord | inRest
  · exact absurd inWord (by decide)
  · exact absurd (usual _ inRest) (by decide)

/-- No notice goes over the border to the next notice. -/
theorem Written.not_into_notice {notice : Notice} {before after rest behind : Text}
    (written : notice.Written (before ++ after)) (notEmpty : before ≠ [])
    (goesOn : after ++ behind = "Copyright" ++ rest) : after = [] := by
  by_contra afterNotEmpty
  obtain ⟨nameEnd, isEnd, inAfter | ⟨unit, isFirst, isMember⟩⟩ := written.after_border afterNotEmpty
  · have length : ∀ nameEnd ∈ nameEnds, nameEnd.length = 10 := by decide
    have long := inAfter.length_le
    rw [length nameEnd isEnd] at long
    have isPrefix : Text.ofString "Copyright" <+: after :=
      List.prefix_of_prefix_length_le (List.prefix_append _ rest)
        (goesOn ▸ List.prefix_append after behind) (Nat.le_trans (by decide) long)
    obtain ⟨others, rfl⟩ := isPrefix
    exact notEmpty written.not_word_again
  · have isC : unit = 0x43 := by
      have heads := congrArg List.head? goesOn
      rw [List.head?_append, List.head?_append, isFirst] at heads
      exact Option.some.inj heads
    have unlike : ∀ nameEnd ∈ nameEnds, (0x43 : CodeUnit) ∉ nameEnd := by decide
    exact unlike nameEnd isEnd (isC ▸ isMember)

/-- No notice begins in what stands before a notice. -/
theorem read?_before {left : Text} (free : Free left) (rest : Text) (offset : Nat)
    (inside : offset < left.length) :
    read? ((left ++ ("Copyright" ++ rest)).drop offset) = none := by
  cases reads : read? ((left ++ ("Copyright" ++ rest)).drop offset) with
  | none => rfl
  | some notice =>
    exfalso
    obtain ⟨written, behind, whole, isWritten⟩ := exists_written_of_read? _ _ reads
    rw [List.drop_append_of_le_length (Nat.le_of_lt inside)] at whole
    have notEmpty : left.drop offset ≠ [] := fun empty =>
      absurd (List.drop_eq_nil_iff.mp empty) (Nat.not_le_of_lt inside)
    have isFree : Free (left.drop offset) := free.of_infix (List.drop_suffix _ _).isInfix
    have inside : written <:+: left.drop offset := by
      rcases List.append_eq_append_iff.mp whole with ⟨after, rfl, goesOn⟩ | ⟨others, beforeWhole, _⟩
      · have nothing := isWritten.not_into_notice notEmpty goesOn.symm
        exact ⟨[], [], by simp [nothing]⟩
      · exact ⟨[], others, beforeWhole.symm⟩
    exact isFree notice written isWritten inside

/-! ### The search -/

theorem findFrom?_eq_some_iff (position : Nat) (text : Text) (found : Nat) (notice : Notice) :
    findFrom? position text = some (found, notice) ↔
      ∃ offset, found = position + offset ∧ read? (text.drop offset) = some notice ∧
        ∀ earlier < offset, read? (text.drop earlier) = none := by
  induction text generalizing position with
  | nil =>
    have nothing : read? [] = none := by decide
    simp [findFrom?, nothing]
  | cons unit rest inductionHypothesis =>
    rw [findFrom?]
    cases reads : read? (unit :: rest) with
    | some other =>
      constructor
      · rintro ⟨⟩
        exact ⟨0, rfl, reads, fun earlier before => absurd before (Nat.not_lt_zero _)⟩
      · rintro ⟨offset, rfl, readsThere, notBefore⟩
        cases offset with
        | zero =>
          rw [List.drop_zero, reads] at readsThere
          cases readsThere
          rfl
        | succ offset =>
          have notHere := notBefore 0 (Nat.succ_pos _)
          rw [List.drop_zero, reads] at notHere
          cases notHere
    | none =>
      dsimp only
      rw [inductionHypothesis]
      constructor
      · rintro ⟨offset, rfl, readsThere, notBefore⟩
        refine ⟨offset + 1, by omega, readsThere, fun earlier before => ?_⟩
        cases earlier with
        | zero => exact reads
        | succ earlier => exact notBefore earlier (Nat.lt_of_succ_lt_succ before)
      · rintro ⟨offset, rfl, readsThere, notBefore⟩
        cases offset with
        | zero =>
          rw [List.drop_zero, reads] at readsThere
          cases readsThere
        | succ offset =>
          exact ⟨offset, by omega, readsThere, fun earlier before =>
            notBefore (earlier + 1) (Nat.succ_lt_succ before)⟩

/-- The search finds what stands behind a text without a notice. -/
theorem find?_append {before : Text} (free : Free before) (above : Text) {notice : Notice}
    {text : Text} (reads : read? text = some notice) :
    find? (above ++ (before ++ text)) above.length =
      some (above.length + before.length, notice) := by
  rw [find?, List.drop_left, findFrom?_eq_some_iff]
  refine ⟨before.length, rfl, by rw [List.drop_left]; exact reads, fun earlier inside => ?_⟩
  obtain ⟨written, rest, rfl, isWritten⟩ := exists_written_of_read? _ _ reads
  obtain ⟨after, rfl, _⟩ := isWritten.exists_word
  rw [List.append_assoc]
  exact read?_before free _ earlier inside

/-- What the search goes over has no notice. -/
theorem free_of_find? (content : Text) (start position : Nat) (notice : Notice)
    (finds : find? content start = some (position, notice)) :
    start ≤ position ∧ read? (content.drop position) = some notice ∧
      Free (content.slice start position) := by
  obtain ⟨offset, rfl, reads, notBefore⟩ := (findFrom?_eq_some_iff _ _ _ _).mp finds
  rw [List.drop_drop] at reads
  refine ⟨Nat.le_add_right _ _, reads, fun other written isWritten isPart => ?_⟩
  rw [Text.slice, Nat.add_sub_cancel_left] at isPart
  obtain ⟨before, rest, whole⟩ := isPart
  rw [List.append_assoc] at whole
  have early : before.length < offset := by
    have measured := congrArg List.length whole
    have long := isWritten.length_pos
    have bound : ((content.drop start).take offset).length ≤ offset := List.length_take_le _ _
    simp only [List.length_append] at measured
    omega
  have readsBefore := notBefore before.length early
  rw [← List.take_append_drop offset (content.drop start), ← whole, List.append_assoc,
    List.drop_left, List.append_assoc, isWritten.read?_append] at readsBefore
  cases readsBefore

/-- A search that begins later, but not behind the first notice, finds the same notice. -/
theorem find?_later {content : Text} {start later position : Nat} {notice : Notice}
    (finds : find? content start = some (position, notice)) (after : start ≤ later)
    (before : later ≤ position) : find? content later = some (position, notice) := by
  rw [find?, findFrom?_eq_some_iff] at finds ⊢
  obtain ⟨offset, rfl, reads, notBefore⟩ := finds
  refine ⟨start + offset - later, by omega, ?_, fun earlier inside => ?_⟩
  · rw [List.drop_drop] at reads ⊢
    rwa [Nat.add_sub_cancel' before]
  · have readsEarlier := notBefore (later - start + earlier) (by omega)
    rw [List.drop_drop] at readsEarlier ⊢
    rwa [← Nat.add_assoc, Nat.add_sub_cancel' after] at readsEarlier

theorem findFrom?_eq_none_iff (position : Nat) (text : Text) :
    findFrom? position text = none ↔ ∀ offset, read? (text.drop offset) = none := by
  have nothing : read? [] = none := by decide
  induction text generalizing position with
  | nil => simp [findFrom?, nothing]
  | cons unit rest inductionHypothesis =>
    rw [findFrom?]
    cases reads : read? (unit :: rest) with
    | some notice =>
      refine ⟨fun finds => (Option.some_ne_none _ finds).elim, fun none => ?_⟩
      have notHere := none 0
      rw [List.drop_zero, reads] at notHere
      cases notHere
    | none =>
      refine (inductionHypothesis (position + 1)).trans ⟨fun none offset => ?_, fun none offset =>
        none (offset + 1)⟩
      cases offset with
      | zero => exact reads
      | succ offset => exact none offset

/-- The search finds nothing exactly if no notice is left. -/
theorem find?_eq_none_iff (content : Text) (start : Nat) :
    find? content start = none ↔ Free (content.drop start) := by
  rw [free_iff, find?, findFrom?_eq_none_iff]

end SourceLint.Copyright.Notice
