/-
This file says what a line with a license identifier consists of: the comment leader, the tag,
spaces, the identifier and white space. It is also shown when a line with a notice is no such line:
the tag would have to stand before the notice, so the notice would be part of the identifier, and
whether an identifier goes over a line is all that another notice in its place can change.
-/
import SourceLint.Copyright.Header
import SourceLint.Proofs.Copyright.Search

namespace SourceLint.Copyright

/-! ### Identifiers -/

/-- A text that can be a license identifier: there is something of it, no white space is at its
ends, and it does not go over the end of a line. -/
structure IsIdentifier (text : Text) : Prop where
  notEmpty : text ≠ []
  head : ∀ unit ∈ text.head?, unit.isBlank = false
  last : ∀ unit ∈ text.getLast?, unit.isBlank = false
  oneLine : ∀ unit ∈ text, unit.isLineTerminator = false

instance (text : Text) : Decidable (IsIdentifier text) :=
  -- The instances are given, since to decide by going over all units takes too long.
  have (unit? : Option CodeUnit) : Decidable (∀ unit ∈ unit?, unit.isBlank = false) :=
    Option.decidableForallMem _
  have : Decidable (∀ unit ∈ text, unit.isLineTerminator = false) := List.decidableBAll _ text
  decidable_of_iff (text ≠ [] ∧ (∀ unit ∈ text.head?, unit.isBlank = false) ∧
      (∀ unit ∈ text.getLast?, unit.isBlank = false) ∧
      ∀ unit ∈ text, unit.isLineTerminator = false)
    ⟨fun ⟨notEmpty, head, last, oneLine⟩ => ⟨notEmpty, head, last, oneLine⟩,
      fun ⟨notEmpty, head, last, oneLine⟩ => ⟨notEmpty, head, last, oneLine⟩⟩

theorem IsIdentifier.head?_ne_space {text : Text} (isIdentifier : IsIdentifier text) (rest : Text) :
    (text ++ rest).head? ≠ some 0x20 := by
  obtain ⟨unit, others, rfl⟩ := List.exists_cons_of_ne_nil isIdentifier.notEmpty
  rintro ⟨⟩
  exact absurd (isIdentifier.head 0x20 rfl) (by decide)

theorem IsIdentifier.isOneLine {text : Text} (isIdentifier : IsIdentifier text) : text.OneLine := by
  intro unit member
  have notTerminator := isIdentifier.oneLine unit member
  constructor <;> rintro rfl <;> exact absurd notTerminator (by decide)

namespace LicenseLine

/-- The identifier is read behind the tag and spaces. -/
theorem read?_append (start count : Nat) (identifier blanks : Text)
    (isIdentifier : IsIdentifier identifier) (areBlank : ∀ unit ∈ blanks, unit.isBlank = true) :
    read? start (licenseTag ++ (Text.spaces count ++ (identifier ++ blanks))) =
      some ⟨start, licenseTag.length + count, identifier⟩ := by
  have trimmed : Text.trimEnd (identifier ++ blanks) = identifier := by
    rw [Text.trimEnd_append_blanks _ _ areBlank, Text.trimEnd_eq_self _ isIdentifier.last]
  have skipped := Notice.skipSpaces_spaces_append count (identifier ++ blanks)
    (isIdentifier.head?_ne_space blanks)
  have isFirst : ∃ unit, identifier.head? = some unit := by
    obtain ⟨unit, others, rfl⟩ := List.exists_cons_of_ne_nil isIdentifier.notEmpty
    exact ⟨unit, rfl⟩
  obtain ⟨unit, isFirst⟩ := isFirst
  have noTerminator : identifier.any CodeUnit.isLineTerminator = false :=
    List.any_eq_false.mpr fun unit member =>
      Bool.not_eq_true _ ▸ isIdentifier.oneLine unit member
  have spaces : (Text.spaces count ++ (identifier ++ blanks)).length -
      (identifier ++ blanks).length = count := by
    rw [List.length_append, Nat.add_sub_cancel_right, Text.spaces, List.length_replicate]
  rw [read?, Text.after?_append]
  simp only [Option.bind_eq_bind, Option.bind_some, skipped, trimmed, isFirst,
    isIdentifier.head unit isFirst, noTerminator, Bool.or_self, Bool.false_eq_true, if_false,
    spaces]

/-- What is read as a license identifier has been written as one. -/
theorem exists_of_read? (start : Nat) (text : Text) (license : LicenseLine)
    (reads : read? start text = some license) :
    license.start = start ∧ IsIdentifier license.identifier ∧ ∃ (count : Nat) (blanks : Text),
      text = licenseTag ++ (Text.spaces count ++ (license.identifier ++ blanks)) ∧
        license.tagLength = licenseTag.length + count ∧ ∀ unit ∈ blanks, unit.isBlank = true := by
  obtain ⟨rest, readsTag, reads⟩ := Option.bind_eq_some_iff.mp reads
  obtain ⟨unit, isFirst, reads⟩ := Option.bind_eq_some_iff.mp reads
  obtain ⟨count, restWhole⟩ := Notice.exists_spaces rest
  obtain ⟨blanks, identifierWhole, areBlank, last⟩ := (Notice.skipSpaces rest).exists_trimEnd
  split at reads
  case isTrue => cases reads
  case isFalse proper =>
    cases reads
    rw [Bool.or_eq_true, not_or, Bool.not_eq_true, Bool.not_eq_true, List.any_eq_false] at proper
    refine ⟨rfl, ⟨?_, ?_, last, ?_⟩, count, blanks, ?_, ?_, areBlank⟩
    · rintro empty
      rw [show (Notice.skipSpaces rest).trimEnd = [] from empty] at isFirst
      cases isFirst
    · intro other isOther
      cases isFirst.symm.trans isOther
      exact proper.1
    · exact fun other member => Bool.not_eq_true _ ▸ proper.2 other member
    · rw [← identifierWhole, ← restWhole]
      exact Text.after?_eq_some _ _ _ readsTag
    · have measured := congrArg List.length restWhole
      rw [List.length_append, Text.spaces, List.length_replicate] at measured
      dsimp only
      omega

/-- Behind the tag there is no identifier exactly if there is nothing but white space, or what there
is begins with white space or goes over the end of a line. -/
theorem read?_eq_none_iff (start : Nat) (rest : Text) :
    read? start (licenseTag ++ rest) = none ↔
      ∀ unit ∈ (Text.trimEnd (Notice.skipSpaces rest)).head?, unit.isBlank = true ∨
        (Text.trimEnd (Notice.skipSpaces rest)).any CodeUnit.isLineTerminator = true := by
  rw [read?, Text.after?_append]
  simp only [Option.bind_eq_bind, Option.bind_some]
  cases (Text.trimEnd (Notice.skipSpaces rest)).head? with
  | none => simp
  | some unit =>
    rw [Option.bind_some]
    split
    case isTrue improper =>
      refine ⟨fun _ other isOther => ?_, fun _ => rfl⟩
      cases Option.mem_some_iff.mp isOther
      exact Bool.or_eq_true _ _ ▸ improper
    case isFalse proper =>
      refine ⟨fun none => (Option.some_ne_none _ none).elim, fun improper => absurd ?_ proper⟩
      exact (Bool.or_eq_true _ _).mpr (improper unit (Option.mem_some_self unit))

end LicenseLine

/-! ### Identifiers on lines -/

namespace Header

theorem licenseOnLine?_append (leader identifier blanks : Text) (start count : Nat)
    (ending : Option Newline) (isIdentifier : IsIdentifier identifier)
    (areBlank : ∀ unit ∈ blanks, unit.isBlank = true) :
    licenseOnLine? leader
        ⟨start, leader ++ (licenseTag ++ (Text.spaces count ++ (identifier ++ blanks))), ending⟩ =
      some ⟨start + leader.length, licenseTag.length + count, identifier⟩ := by
  rw [licenseOnLine?, Text.after?_append, Option.bind_eq_bind, Option.bind_some,
    LicenseLine.read?_append _ _ _ _ isIdentifier areBlank]

theorem exists_of_licenseOnLine? (leader : Text) (line : Line) (license : LicenseLine)
    (reads : licenseOnLine? leader line = some license) :
    license.start = line.start + leader.length ∧ IsIdentifier license.identifier ∧
      ∃ (count : Nat) (blanks : Text),
        line.text =
          leader ++ (licenseTag ++ (Text.spaces count ++ (license.identifier ++ blanks))) ∧
        license.tagLength = licenseTag.length + count ∧
        ∀ unit ∈ blanks, unit.isBlank = true := by
  obtain ⟨rest, readsLeader, reads⟩ := Option.bind_eq_some_iff.mp reads
  obtain ⟨start, isIdentifier, count, blanks, rfl, tagLength, areBlank⟩ :=
    LicenseLine.exists_of_read? _ _ _ reads
  exact ⟨start, isIdentifier, count, blanks, Text.after?_eq_some _ _ _ readsLeader, tagLength,
    areBlank⟩

end Header

/-! ### Notices in the place of identifiers -/

theorem Notice.head?_of_read? (text : Text) (notice : Notice) (reads : read? text = some notice) :
    text.head? = some 0x43 := by
  obtain ⟨written, behind, rfl, isWritten⟩ := exists_written_of_read? _ _ reads
  obtain ⟨after, rfl, _⟩ := isWritten.exists_word
  rfl

theorem Notice.ne_nil_of_read? (text : Text) (notice : Notice) (reads : read? text = some notice) :
    text ≠ [] := by
  rintro rfl
  cases head?_of_read? [] notice reads

/-- Trimming leaves the start of a notice. -/
theorem Notice.head?_trimEnd_of_read? (text : Text) (notice : Notice)
    (reads : read? text = some notice) : text.trimEnd.head? = some 0x43 := by
  have head := head?_of_read? text notice reads
  obtain ⟨blanks, whole, areBlank, _⟩ := text.exists_trimEnd
  rw [whole, List.head?_append] at head
  cases trimmed : text.trimEnd with
  | nil =>
    rw [trimmed, List.head?_nil, Option.none_or] at head
    exact absurd (areBlank 0x43 (List.mem_of_head? head)) (by decide)
  | cons unit rest =>
    rwa [trimmed] at head

theorem skipSpaces_append (left right : Text) (unlike : right.head? ≠ some 0x20) :
    Notice.skipSpaces (left ++ right) = Notice.skipSpaces left ++ right := by
  rw [Notice.skipSpaces, Notice.skipSpaces, List.dropWhile_append]
  split
  case isTrue empty =>
    rw [List.isEmpty_iff.mp empty, List.nil_append]
    exact Notice.skipSpaces_spaces_append 0 right unlike
  case isFalse => rfl

/-- What is read behind the tag when a notice is part of it. -/
theorem trimEnd_skipSpaces_append (middle line : Text) (notice : Notice)
    (reads : Notice.read? line = some notice) :
    Text.trimEnd (Notice.skipSpaces (middle ++ line)) =
      Notice.skipSpaces middle ++ Text.trimEnd line := by
  have trimmed := Notice.head?_trimEnd_of_read? line notice reads
  rw [skipSpaces_append, Text.trimEnd_append]
  · rintro empty
    rw [empty] at trimmed
    cases trimmed
  · rw [Notice.head?_of_read? line notice reads]
    decide

/-- A notice that keeps what it is part of from being an identifier can be changed into another one
that goes over the end of a line if the first one does. -/
theorem LicenseLine.read?_notice (start other : Nat) (middle line changed : Text)
    (notice changedNotice : Notice) (reads : Notice.read? line = some notice)
    (changedReads : Notice.read? changed = some changedNotice)
    (ends : Text.BreaksWithin line → Text.BreaksWithin changed)
    (unread : read? start (licenseTag ++ (middle ++ line)) = none) :
    read? other (licenseTag ++ (middle ++ changed)) = none := by
  have heads : (Notice.skipSpaces middle ++ Text.trimEnd changed).head? =
      (Notice.skipSpaces middle ++ Text.trimEnd line).head? := by
    rw [List.head?_append, List.head?_append, Notice.head?_trimEnd_of_read? _ _ reads,
      Notice.head?_trimEnd_of_read? _ _ changedReads]
  rw [read?_eq_none_iff, trimEnd_skipSpaces_append _ _ _ reads] at unread
  rw [read?_eq_none_iff, trimEnd_skipSpaces_append _ _ _ changedReads, heads]
  intro unit isFirst
  refine (unread unit isFirst).imp_right fun goesOver => ?_
  rw [List.any_append, Bool.or_eq_true] at goesOver ⊢
  exact goesOver.imp_right ends

/-- A tag on the line of a notice stands before the notice, if no notice is before it. -/
theorem exists_of_tag_on_line (leader before line rest : Text) (free : Notice.Free leader)
    (notice : Notice) (reads : Notice.read? line = some notice)
    (whole : before ++ line = leader ++ (licenseTag ++ rest)) :
    ∃ middle, before = leader ++ (licenseTag ++ middle) ∧ rest = middle ++ line := by
  rw [← List.append_assoc] at whole
  rcases List.append_eq_append_iff.mp whole with
    ⟨cut, tagWhole, lineWhole⟩ | ⟨middle, rfl, restWhole⟩
  · cases cut with
    | nil =>
      refine ⟨[], ?_, lineWhole.symm⟩
      rw [List.append_nil, tagWhole, List.append_nil]
    | cons unit others =>
      exfalso
      have isC : unit = 0x43 := by
        have head := Notice.head?_of_read? line notice reads
        rw [lineWhole] at head
        exact Option.some.inj head
      -- The notice begins in the tag, which has no such unit, or goes over the first of the tag.
      rcases List.append_eq_append_iff.mp tagWhole with
        ⟨begun, _, cutWhole⟩ | ⟨begun, rfl, cutWhole⟩
      · have inTag : (0x43 : CodeUnit) ∈ licenseTag := by
          rw [cutWhole, isC]
          exact List.mem_append_right _ List.mem_cons_self
        exact absurd inTag (by decide)
      · obtain ⟨written, behind, lineWritten, isWritten⟩ := Notice.exists_written_of_read? _ _ reads
        have foreign : (0x53 : CodeUnit) ∉ written := isWritten.not_mem _ (by decide) (by decide)
        rw [lineWritten, cutWhole, List.append_assoc] at lineWhole
        rcases List.append_eq_append_iff.mp lineWhole with ⟨left, begunWhole, _⟩ |
          ⟨extra, writtenWhole, tagWhole⟩
        · exact free notice written isWritten ⟨before, left, by rw [begunWhole, List.append_assoc]⟩
        · cases extra with
          | nil =>
            rw [List.append_nil] at writtenWhole
            exact free notice written isWritten ⟨before, [], by rw [writtenWhole, List.append_nil]⟩
          | cons first more =>
            have isS : first = 0x53 := (congrArg (List.headD · 0) tagWhole).symm
            refine foreign ?_
            rw [writtenWhole, isS]
            exact List.mem_append_right _ List.mem_cons_self
  · exact ⟨middle, List.append_assoc _ _ _, restWhole⟩

end SourceLint.Copyright
