/-
This file says where the check puts in the license identifier that a header lacks, and whether that
is within the block comment in which the header begins. The new line begins with the star of such a
comment, and it goes behind the line of the notice, whatever that line ends with. Neither the tag nor
the notice can close a comment. So the new line is within the comment if nothing closes that between
its opener and the header or behind the notice on its line, and else it is behind the comment.
-/
import SourceLint.Proofs.Check.CopyrightLongForm

namespace SourceLint.Copyright

/-! ### Parts of a text that are not across a border -/

/-- A part of a text is on one side of units that are foreign to it. -/
theorem infix_around_iff {part left middle right : Text} (notEmpty : middle ≠ [])
    (foreign : ∀ unit ∈ part, unit ∉ middle) (isPart : part ≠ []) :
    part <:+: left ++ (middle ++ right) ↔ part <:+: left ∨ part <:+: right := by
  obtain ⟨own, isOwn⟩ := List.exists_mem_of_ne_nil part isPart
  constructor
  · intro inWhole
    rcases Notice.infix_append_cases inWhole with inLeft | inRest |
      ⟨before, after, rfl, _, afterNotEmpty, _, starts⟩
    · exact Or.inl inLeft
    · rcases Notice.infix_append_cases inRest with inMiddle | inRight |
        ⟨before, after, rfl, beforeNotEmpty, _, ends, _⟩
      · exact absurd (inMiddle.subset isOwn) (foreign own isOwn)
      · exact Or.inr inRight
      · obtain ⟨unit, isUnit⟩ := List.exists_mem_of_ne_nil before beforeNotEmpty
        exact absurd (ends.subset isUnit) (foreign unit (List.mem_append_left _ isUnit))
    · obtain ⟨unit, others, rfl⟩ := List.exists_cons_of_ne_nil afterNotEmpty
      obtain ⟨first, more, rfl⟩ := List.exists_cons_of_ne_nil notEmpty
      obtain ⟨rfl, _⟩ := List.cons_prefix_cons.mp starts
      exact absurd List.mem_cons_self
        (foreign unit (List.mem_append_right _ List.mem_cons_self))
  · rintro (inLeft | inRight)
    · exact inLeft.trans (List.prefix_append _ _).isInfix
    · exact inRight.trans ⟨left ++ middle, [], by simp⟩

/-! ### Block comments -/

/-- What a block comment begins with. -/
def opener : Text := "/*"

/-- What a block comment ends with. -/
def closer : Text := "*/"

theorem eq_or_eq_of_mem_closer {unit : CodeUnit} (member : unit ∈ closer) :
    unit = 0x2A ∨ unit = 0x2F := by
  have units : closer = [0x2A, 0x2F] := by decide
  rwa [units, List.mem_pair] at member

/-- What stands between the comment leader and a notice does not have a unit that closes a
comment. -/
theorem Header.exists_leaderOf_append (before : Text) :
    ∃ tag, before = leaderOf before ++ tag ∧ ∀ unit ∈ closer, unit ∉ tag := by
  cases reads : tagLength? before with
  | none =>
    refine ⟨[], ?_, fun _ _ => List.not_mem_nil⟩
    rw [leaderOf, reads, Option.getD_none, Nat.sub_zero, List.take_length, List.append_nil]
  | some length =>
    obtain ⟨leader, count, rfl, _⟩ := exists_of_tagLength? before length reads
    refine ⟨noticeTag ++ Text.spaces count, by rw [leaderOf_append], fun unit isCloser member => ?_⟩
    have unlike : unit ∉ noticeTag ∧ unit ≠ 0x20 := by
      rcases eq_or_eq_of_mem_closer isCloser with rfl | rfl <;> decide
    rcases List.mem_append.mp member with inTag | inSpaces
    · exact unlike.1 inTag
    · exact unlike.2 (List.eq_of_mem_replicate inSpaces)

theorem Notice.Written.closer_not_mem {notice : Notice} {text : Text}
    (written : notice.Written text) : ∀ unit ∈ closer, unit ∉ text := by
  intro unit isCloser
  have foreign : Notice.Foreign unit := by
    rcases eq_or_eq_of_mem_closer isCloser with rfl | rfl <;> decide
  exact written.not_mem unit foreign.1 foreign.2

/-! ### What stands before the new line -/

/-- A line with a license identifier is put in behind the line of a header that has none. -/
structure Insertion (content identifier : Text) (first : Header) (warning : Warning) : Prop where
  unnamed : first.license = none
  replaces : warning.replacements = [⟨.point first.lineStop,
    "\n" ++ continuationLeader first.leader ++ licenseTag ++ " " ++ identifier⟩]
  leader : first.leader.length ≤ first.start ∧
    content.slice (first.start - first.leader.length) first.start = first.leader
  comment : ∀ before behind, first.leader = before ++ (opener ++ behind) →
    (closer <:+: content.slice (first.start - behind.length) first.lineStop ↔
      closer <:+: behind ∨ closer <:+: content.slice first.noticeSpan.stop first.lineStop)

namespace Header.Found

variable {content above before line below : Text} {header : Header}
  (isFound : Found content 0 header above before line below)

include isFound

theorem leader_standing : header.leader.length ≤ header.start ∧
    content.slice (header.start - header.leader.length) header.start = header.leader := by
  have place : header.start - header.leader.length = above.length := by
    rw [isFound.start_eq, isFound.leader_eq, Nat.add_sub_cancel]
  obtain ⟨tag, whole⟩ := isPrefix_leaderOf before
  refine ⟨?_, ?_⟩
  · rw [isFound.start_eq, isFound.leader_eq]
    exact Nat.le_add_left _ _
  · rw [place, isFound.start_eq, isFound.leader_eq, isFound.around.whole]
    nth_rewrite 1 [← whole]
    simp only [List.append_assoc]
    exact Text.slice_append _ _ _

/-- A comment that is opened in the leader is closed on the line of the notice in the leader or
behind the notice. -/
theorem closed_iff {outside inside : Text} (opens : header.leader = outside ++ (opener ++ inside)) :
    closer <:+: content.slice (header.start - inside.length) header.lineStop ↔
      closer <:+: inside ∨ closer <:+: content.slice header.noticeSpan.stop header.lineStop := by
  obtain ⟨written, rest, rfl, isWritten⟩ := Notice.exists_written_of_read? _ _ isFound.reads
  obtain ⟨tag, whole, tagForeign⟩ := exists_leaderOf_append before
  have notEmpty : tag ++ written ≠ [] :=
    List.append_ne_nil_of_right_ne_nil _
      (List.ne_nil_of_length_pos (Nat.lt_of_lt_of_le (by decide) isWritten.length_pos))
  have foreign : ∀ unit ∈ closer, unit ∉ tag ++ written := fun unit isCloser member =>
    (List.mem_append.mp member).elim (tagForeign unit isCloser)
      (isWritten.closer_not_mem unit isCloser)
  rw [← isFound.leader_eq, opens] at whole
  have start_eq : header.start - inside.length = (above ++ (outside ++ opener)).length := by
    rw [isFound.start_eq, ← isFound.leader_eq, opens]
    simp only [List.length_append]
    omega
  have noticeStop_eq : header.noticeSpan.stop = (above ++ (before ++ written)).length := by
    rw [Header.noticeSpan, isFound.noticeStart_eq, ← isWritten.length]
    simp only [List.length_append]
    omega
  have lineStop_eq : header.lineStop = above.length + before.length + (written ++ rest).length :=
    isFound.lineStop_eq
  have fromOpener : content.slice (header.start - inside.length) header.lineStop =
      inside ++ ((tag ++ written) ++ rest) := by
    have split : content =
        (above ++ (outside ++ opener)) ++ ((inside ++ ((tag ++ written) ++ rest)) ++ below) := by
      rw [isFound.around.whole, whole]
      simp only [List.append_assoc]
    have stop : header.lineStop =
        (above ++ (outside ++ opener)).length + (inside ++ ((tag ++ written) ++ rest)).length := by
      rw [lineStop_eq, whole]
      simp only [List.length_append]
      omega
    rw [start_eq, stop, split, Text.slice_append]
  have fromNotice : content.slice header.noticeSpan.stop header.lineStop = rest := by
    have split : content = (above ++ (before ++ written)) ++ (rest ++ below) := by
      rw [isFound.around.whole]
      simp only [List.append_assoc]
    have stop : header.lineStop = (above ++ (before ++ written)).length + rest.length := by
      rw [lineStop_eq]
      simp only [List.length_append]
      omega
    rw [noticeStop_eq, stop, split, Text.slice_append]
  rw [fromOpener, fromNotice]
  exact infix_around_iff notEmpty foreign (by decide)

end Header.Found

/-! ### The check -/

/-- What is said on a header that names no license. -/
def missingLicense : Text := "no SPDX-License-Identifier header found"

theorem message_of_historyWarnings {year : Nat} {change : Change} {content : Text}
    {headers : List Header} {years : List Warning}
    (yearChecks : historyWarnings year change content headers = .ok years) :
    ∀ warning ∈ years, warning.message ∈ yearMessages := by
  rw [historyWarnings] at yearChecks
  split at yearChecks
  · cases yearChecks
    exact message_of_mem_yearWarnings year headers
  · obtain ⟨oldHeaders, _, yearChecks⟩ := exists_of_bind_eq_ok _ _ _ yearChecks
    split at yearChecks
    · cases yearChecks
      exact message_of_mem_revertWarnings change content _ oldHeaders headers
    · cases yearChecks
      exact message_of_mem_yearWarnings year headers

/-- Of what is said on the tags of a header, only one warning is on a license that is missing. -/
theorem replacements_of_missingLicense {identifier : Text} {header : Header} {warning : Warning}
    (member : warning ∈ spdxWarnings identifier header)
    (isMissing : warning.message = missingLicense) :
    header.license = none ∧ warning.replacements = [⟨.point header.lineStop,
      "\n" ++ continuationLeader header.leader ++ licenseTag ++ " " ++ identifier⟩] := by
  have notTag : Text.ofString "include SPDX-FileCopyrightText header" ≠ missingLicense := by decide
  have notOther : Text.ofString "SPDX-License-Identifier is incorrect" ≠ missingLicense := by
    decide
  have notLongForm : Text.ofString "remove long-form copyright text" ≠ missingLicense := by decide
  rw [spdxWarnings, List.mem_append, List.mem_append] at member
  rcases member with (isTag | isLicense) | isLongForm
  · rw [tagWarnings] at isTag
    split at isTag
    · cases isTag
    · cases List.mem_singleton.mp isTag
      exact absurd isMissing notTag
  · rw [licenseWarnings] at isLicense
    split at isLicense
    case h_1 unnamed =>
      cases List.mem_singleton.mp isLicense
      exact ⟨unnamed, rfl⟩
    case h_2 =>
      split at isLicense
      · cases isLicense
      · cases List.mem_singleton.mp isLicense
        exact absurd isMissing notOther
  · rw [longFormWarnings] at isLongForm
    split at isLongForm
    · cases isLongForm
    · cases List.mem_singleton.mp isLongForm
      exact absurd isMissing notLongForm

/-- The warnings of a check are on years, or on the tags of the first header. -/
theorem mem_of_check {policy : Policy} {year : Nat} {change : Change} {filename content : Text}
    {regions : List Region} {warnings : List Warning}
    (checks : check policy year change ⟨filename, Lines.ofText content, regions⟩ = .ok warnings)
    {warning : Warning} (member : warning ∈ warnings) :
    warning.message ∈ yearMessages ∨
      ∃ first others, Header.all (Lines.ofText content) = .ok (first :: others) ∧
        warning ∈ spdxWarnings policy.identifier first := by
  obtain ⟨headers, finds, checks⟩ := exists_of_bind_eq_ok _ _ _ checks
  have parts : ∃ years tags, warnings = years ++ tags ∧
      (∀ warning ∈ years, warning.message ∈ yearMessages) ∧
      ∀ warning ∈ tags,
        warning ∈ (headers.head?.map (spdxWarnings policy.identifier)).getD [] := by
    dsimp only at checks
    split at checks
    · obtain ⟨years, yearChecks, checks⟩ := exists_of_bind_eq_ok _ _ _ checks
      cases checks
      refine ⟨years, _, rfl, message_of_historyWarnings yearChecks, ?_⟩
      split
      · exact fun _ isTag => isTag
      · exact nofun
    · cases checks
      refine ⟨[], _, rfl, nofun, ?_⟩
      split
      · exact fun _ isTag => isTag
      · exact nofun
  obtain ⟨years, tags, rfl, onYears, onTags⟩ := parts
  rcases List.mem_append.mp member with isYear | isTag
  · exact Or.inl (onYears warning isYear)
  · have isTag := onTags warning isTag
    cases headers with
    | nil => cases isTag
    | cons first others => exact Or.inr ⟨first, others, finds, isTag⟩

/-- The warning on a license that is missing puts a line in behind that of the first header. The
line is within a comment that is opened before the header, unless that is closed before the header
or behind the notice. -/
theorem insertion_of_check (policy : Policy) (year : Nat) (change : Change)
    (filename content : Text) (regions : List Region) (warnings : List Warning)
    (checks : check policy year change ⟨filename, Lines.ofText content, regions⟩ = .ok warnings)
    (warning : Warning) (member : warning ∈ warnings)
    (isMissing : warning.message = missingLicense) :
    ∃ first others, Header.all (Lines.ofText content) = .ok (first :: others) ∧
      Insertion content policy.identifier first warning := by
  have notYears : missingLicense ∉ yearMessages := by decide
  rcases mem_of_check checks member with isYear | ⟨first, others, finds, isTag⟩
  · exact absurd (isMissing ▸ isYear) notYears
  · have searched := (Header.all_eq_ok_iff content _).mp finds
    obtain ⟨⟨_, _, _, _, isFound⟩, _⟩ := searched.exists_found (Or.inl rfl)
    obtain ⟨unnamed, replaces⟩ := replacements_of_missingLicense isTag isMissing
    exact ⟨first, others, finds, unnamed, replaces, isFound.leader_standing,
      fun _ _ opens => isFound.closed_iff opens⟩

/-- A file with a notice in a block comment of several lines. -/
def openNotice : Source :=
  Source.ofText "file.c"
    "/* Copyright (c) 2024 NVIDIA CORPORATION\n * This file has not been changed\n */\n" checkName

theorem insertion_openNotice :
    ∃ warnings, check { forceSpdx := true } 2024 ⟨.modified, none, some openNotice.content⟩
        openNotice = .ok warnings ∧
      ∃ warning ∈ warnings, warning.message = missingLicense ∧
        ∃ first : Header, first.leader = "/* " ∧
          Insertion openNotice.content "Apache-2.0" first warning ∧
          ¬closer <:+: openNotice.content.slice (first.start - 1) first.lineStop := by
  let insertion : Warning := ⟨⟨3, 40⟩, missingLicense,
    [⟨⟨40, 40⟩, "\n * SPDX-License-Identifier: Apache-2.0"⟩], []⟩
  have checks : check { forceSpdx := true } 2024 ⟨.modified, none, some openNotice.content⟩
      openNotice = .ok [⟨⟨3, 40⟩, "include SPDX-FileCopyrightText header",
        [⟨⟨3, 3⟩, "SPDX-FileCopyrightText: "⟩], []⟩, insertion] := by decide +kernel
  have finds : Header.all openNotice.lines =
      .ok [⟨3, ⟨14, "2024", none, 37⟩, 40, none, "/* ", none, none⟩] := by decide +kernel
  have member : insertion ∈ [⟨⟨3, 40⟩, "include SPDX-FileCopyrightText header",
      [⟨⟨3, 3⟩, "SPDX-FileCopyrightText: "⟩], []⟩, insertion] := by simp
  obtain ⟨first, others, firstFinds, inserts⟩ := insertion_of_check { forceSpdx := true } 2024
    ⟨.modified, none, some openNotice.content⟩ openNotice.filename openNotice.content
    openNotice.regions _ checks insertion member rfl
  cases finds.symm.trans firstFinds
  have unclosed : ¬(closer <:+: Text.ofString " " ∨
      closer <:+: openNotice.content.slice 40 40) := by
    decide +kernel
  exact ⟨_, checks, insertion, member, rfl, _, rfl, inserts,
    fun closed => unclosed ((inserts.comment [] " " rfl).mp closed)⟩

/-- A file with a notice in a block comment that is closed on its line. -/
def closedNotice : Source :=
  Source.ofText "file.c" "/* Copyright (c) 2024 NVIDIA CORPORATION */\nint x;\n" checkName

/-- The new line is put in behind the comment if that is closed on the line of the notice. -/
theorem insertion_behind_comment :
    ∃ warnings first, check { forceSpdx := true } 2024
        ⟨.modified, none, some closedNotice.content⟩ closedNotice = .ok warnings ∧
      Header.all closedNotice.lines = .ok [first] ∧ first.leader = opener ++ " " ∧
      ∃ warning ∈ warnings, warning.message = missingLicense ∧
        warning.replacements = [⟨.point 43, "\n * SPDX-License-Identifier: Apache-2.0"⟩] ∧
        closer <:+: closedNotice.content.slice opener.length 43 := by
  refine ⟨[⟨⟨3, 43⟩, "include SPDX-FileCopyrightText header",
      [⟨⟨3, 3⟩, "SPDX-FileCopyrightText: "⟩], []⟩,
    ⟨⟨3, 43⟩, missingLicense, [⟨⟨43, 43⟩, "\n * SPDX-License-Identifier: Apache-2.0"⟩], []⟩],
    ⟨3, ⟨14, "2024", none, 37⟩, 43, none, "/* ", none, none⟩, ?_, ?_, rfl,
    _, List.mem_cons_of_mem _ List.mem_cons_self, rfl, rfl, ?_⟩ <;> decide +kernel

end SourceLint.Copyright
