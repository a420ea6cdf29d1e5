/-
This file says when the search for the headers of a text completes. Each place that is looked up is
on a line of the text, so no look-up fails. What can stop the search is the table of license texts
alone: it holds something that is no text under the words that it keeps for itself, and that is met
when such a word stands for a license below a notice, with a further line below it. No other
identifier stops the search, and none but the one that is listed has a long text.
-/
import SourceLint.Proofs.Copyright.Tagged

namespace SourceLint.Copyright

theorem map_eq_error_iff {Failure First Second : Type} (result : Except Failure First)
    (function : First → Second) (failure : Failure) :
    result.map function = .error failure ↔ result = .error failure := by
  cases result with
  | error other => rw [Except.map, Except.error.injEq, Except.error.injEq]
  | ok value => exact ⟨nofun, nofun⟩

/-! ### The table of license texts -/

theorem LicenseEntry.ofIdentifier_eq_unknown {identifier : Text}
    (notListed : identifier ≠ Text.ofString "Apache-2.0")
    (notReserved : identifier ∉ reservedWords) :
    ofIdentifier identifier = unknown := by
  rw [ofIdentifier, if_neg notListed, if_neg fun has => notReserved (List.contains_iff_mem.mp has)]

theorem LicenseEntry.ofIdentifier_eq_reserved {identifier : Text}
    (isReserved : identifier ∈ reservedWords) : ofIdentifier identifier = reserved := by
  have notListed : Text.ofString "Apache-2.0" ∉ reservedWords := by decide
  have unlike : identifier ≠ Text.ofString "Apache-2.0" := by
    rintro rfl
    exact notListed isReserved
  rw [ofIdentifier, if_neg unlike, if_pos (List.contains_iff_mem.mpr isReserved)]

/-- A license that is not listed has no long text, wherever it is looked for. -/
theorem findLongForm_eq_none (lines : Lines) {identifier : Text} (position : Int)
    (notListed : identifier ≠ Text.ofString "Apache-2.0")
    (notReserved : identifier ∉ LicenseEntry.reservedWords) :
    findLongForm lines identifier position = .ok none := by
  rw [findLongForm, LicenseEntry.ofIdentifier_eq_unknown notListed notReserved]

/-- The search for a long text stops at a reserved word if there is a line to look at. -/
theorem longFormBelow_eq_error_iff (identifier leader : Text) (below : List Line)
    (error : LintError) :
    longFormBelow identifier leader below = .error error ↔
      identifier ∈ LicenseEntry.reservedWords ∧ below ≠ [] ∧
        error = .reservedIdentifier identifier := by
  by_cases isReserved : identifier ∈ LicenseEntry.reservedWords
  · rw [longFormBelow.eq_def, LicenseEntry.ofIdentifier_eq_reserved isReserved]
    cases below with
    | nil => simp
    | cons first rest => simp [isReserved, eq_comm]
  · obtain ⟨longForm, finds⟩ := Header.exists_longFormBelow identifier leader below isReserved
    rw [finds]
    simp [isReserved]

/-- What is beneath a notice stops the search if it names a reserved word and goes on below. -/
theorem beneath_eq_error_iff (leader : Text) (below : List Line) (error : LintError) :
    beneath leader below = .error error ↔
      ∃ license, below.head?.bind (Header.licenseOnLine? (continuationLeader leader)) =
          some license ∧ below.tail ≠ [] ∧
        license.identifier ∈ LicenseEntry.reservedWords ∧
        error = .reservedIdentifier license.identifier := by
  have notReserved : defaultLicense ∉ LicenseEntry.reservedWords := by decide
  rw [beneath]
  split
  case h_1 isNone =>
    rw [map_eq_error_iff, longFormBelow_eq_error_iff, isNone]
    simp [notReserved]
  case h_2 license isSome =>
    rw [map_eq_error_iff, longFormBelow_eq_error_iff, isSome]
    simp [and_left_comm]

/-! ### Look-ups -/

namespace Header

/-- The first notice from a position on is on the line of a given number, behind a leader. -/
def NoticeOn (content : Text) (start number : Nat) (leader : Text) : Prop :=
  ∃ noticeStart notice line, Notice.find? content start = some (noticeStart, notice) ∧
    (Lines.ofText content).lineAt noticeStart = .ok number ∧
    (Lines.ofText content).all[number]? = some line ∧ line.start ≤ noticeStart ∧
    leader = leaderOf (content.slice line.start noticeStart)

/-- The license identifier on the line below the one of a given number, behind its leader. -/
def licenseBelow (content : Text) (number : Nat) (leader : Text) : Option LicenseLine :=
  ((Lines.ofText content).all[number + 1]?).bind (licenseOnLine? (continuationLeader leader))

/-- A notice is on a line of the text, which gives its header together with the lines below. -/
theorem exists_next?_eq {content : Text} {start noticeStart : Nat} {notice : Notice}
    (finds : Notice.find? content start = some (noticeStart, notice)) :
    ∃ number leader, ∃ header : Beneath → Header, NoticeOn content start number leader ∧
      next? (Lines.ofText content) start =
        (beneath leader ((Lines.ofText content).all.drop (number + 1))).map fun found =>
          some (header found) := by
  obtain ⟨_, reads, _⟩ := Notice.free_of_find? _ _ _ _ finds
  have isC := Notice.head?_of_read? _ _ reads
  rw [List.head?_drop] at isC
  obtain ⟨above, before, text, below, around, rfl, first⟩ :=
    Text.exists_around content noticeStart 0x43 isC (by decide)
  have notEmpty : text ≠ [] := by
    rintro rfl
    cases first
  obtain ⟨number, isLine, looked, behind⟩ := exists_number around notEmpty
  have sliced : content.slice above.length (above.length + before.length) = before := by
    rw [around.whole, List.append_assoc, Text.slice_append]
  refine ⟨number, leaderOf before, make above.length before text notice,
    ⟨_, notice, _, finds, looked, isLine, Nat.le_add_right _ _, by rw [sliced]⟩, ?_⟩
  rw [next?, Lines.content_ofText, finds, behind]
  dsimp only
  rw [ofNotice_eq around notEmpty]
  cases beneath (leaderOf before) _ <;> rfl

theorem NoticeOn.unique {content leader other : Text} {start number otherNumber : Nat}
    (noticeOn : NoticeOn content start number leader)
    (otherOn : NoticeOn content start otherNumber other) :
    number = otherNumber ∧ leader = other := by
  obtain ⟨_, _, line, finds, looked, isLine, _, rfl⟩ := noticeOn
  obtain ⟨_, _, otherLine, otherFinds, otherLooked, isOther, _, rfl⟩ := otherOn
  cases finds.symm.trans otherFinds
  cases looked.symm.trans otherLooked
  cases isLine.symm.trans isOther
  exact ⟨rfl, rfl⟩

/-- The header of the first notice from a position on names a reserved word for its license, and
that line is not the last one. -/
def Blocked (content : Text) (start : Nat) (identifier : Text) : Prop :=
  identifier ∈ LicenseEntry.reservedWords ∧
    ∃ number leader license, NoticeOn content start number leader ∧
      number + 2 < (Lines.ofText content).all.length ∧
      licenseBelow content number leader = some license ∧ license.identifier = identifier

/-- The search for the next header fails only where it is blocked. -/
theorem next?_eq_error_iff (content : Text) (start : Nat) (error : LintError) :
    next? (Lines.ofText content) start = .error error ↔
      ∃ identifier, Blocked content start identifier ∧ error = .reservedIdentifier identifier := by
  cases finds : Notice.find? content start with
  | none =>
    rw [next?, Lines.content_ofText, finds]
    constructor
    · intro fails
      cases fails
    · rintro ⟨_, ⟨_, _, _, _, ⟨_, _, _, found, _⟩, _⟩, _⟩
      cases finds.symm.trans found
  | some found =>
    obtain ⟨number, leader, header, noticeOn, next_eq⟩ := exists_next?_eq finds
    have goesOn : ((Lines.ofText content).all.drop (number + 1)).tail ≠ [] ↔
        number + 2 < (Lines.ofText content).all.length := by
      rw [List.tail_drop, ne_eq, List.drop_eq_nil_iff, Nat.not_le]
    rw [next_eq, map_eq_error_iff, beneath_eq_error_iff, List.head?_drop, goesOn]
    constructor
    · rintro ⟨license, reads, notLast, isReserved, rfl⟩
      exact ⟨_, ⟨isReserved, number, leader, license, noticeOn, notLast, reads, rfl⟩, rfl⟩
    · rintro ⟨_, ⟨isReserved, _, _, license, otherOn, notLast, reads, rfl⟩, rfl⟩
      obtain ⟨rfl, rfl⟩ := noticeOn.unique otherOn
      exact ⟨license, reads, notLast, isReserved, rfl⟩

/-! ### The search -/

/-- The search that begins at a position comes to a header that is blocked. -/
inductive Stopped (content : Text) : Nat → LintError → Prop where
  | here {start : Nat} {identifier : Text} (blocked : Blocked content start identifier) :
      Stopped content start (.reservedIdentifier identifier)
  | later {start : Nat} {error : LintError} (header : Header)
      (isNext : next? (Lines.ofText content) start = .ok (some header))
      (others : Stopped content header.stop error) : Stopped content start error

theorem stopped_of_someFrom {content : Text} {count start : Nat} {error : LintError}
    (fails : someFrom (Lines.ofText content) count start = .error error) :
    Stopped content start error := by
  induction count generalizing start with
  | zero => cases fails
  | succ count inductionHypothesis =>
    rw [someFrom] at fails
    split at fails
    case h_1 isError =>
      cases fails
      obtain ⟨identifier, blocked, rfl⟩ := (next?_eq_error_iff _ _ _).mp isError
      exact .here blocked
    case h_2 => cases fails
    case h_3 header isNext =>
      exact .later header isNext (inductionHypothesis ((map_eq_error_iff _ _ _).mp fails))

/-- A search that is blocked begins before the end of the text. -/
theorem Blocked.lt_length {content identifier : Text} {start : Nat}
    (blocked : Blocked content start identifier) : start < content.length := by
  by_contra outside
  have isEnd : next? (Lines.ofText content) start = .ok none := by
    rw [next?_eq_none_iff, List.drop_eq_nil_of_le (Nat.le_of_not_lt outside)]
    exact Notice.free_of_length_lt [] (by decide)
  cases isEnd.symm.trans ((next?_eq_error_iff _ _ _).mpr ⟨identifier, blocked, rfl⟩)

/-- The count of the search is not used up before it comes to a header that is blocked. -/
theorem Stopped.someFrom_eq {content : Text} {start : Nat} {error : LintError}
    (stopped : Stopped content start error) (count : Nat)
    (enough : content.length ≤ start + count) :
    someFrom (Lines.ofText content) count start = .error error := by
  induction stopped generalizing count with
  | here blocked =>
    have inside := blocked.lt_length
    cases count with
    | zero => omega
    | succ count => rw [someFrom, (next?_eq_error_iff _ _ _).mpr ⟨_, blocked, rfl⟩]
  | @later start error header isNext _ inductionHypothesis =>
    obtain ⟨progress, inText⟩ := stop_bounds content start header isNext
    cases count with
    | zero => omega
    | succ count =>
      rw [someFrom, isNext]
      dsimp only
      rw [inductionHypothesis count (by omega)]
      rfl

theorem all_eq_error_iff (content : Text) (error : LintError) :
    all (Lines.ofText content) = .error error ↔ Stopped content 0 error :=
  ⟨stopped_of_someFrom, fun stopped =>
    stopped.someFrom_eq content.length (Nat.le_of_eq (Nat.zero_add _).symm)⟩

/-- The place where a long text is looked for below a notice: behind the leader of the license
identifier, or of the notice if there is none. -/
def lastLeaderStop (content : Text) (number : Nat) (line : Line) (leader : Text) : Nat :=
  ((licenseBelow content number leader).map LicenseLine.start).getD (line.start + leader.length)

/-- The place where a long text is looked for is on a line of the text. -/
theorem NoticeOn.exists_last {content leader : Text} {start number : Nat}
    (noticeOn : NoticeOn content start number leader) :
    ∃ line last, (Lines.ofText content).all[number]? = some line ∧
      (Lines.ofText content).lineAt (lastLeaderStop content number line leader) = .ok last ∧
      last < (Lines.ofText content).all.length := by
  obtain ⟨noticeStart, notice, line, _, looked, isLine, after, rfl⟩ := noticeOn
  obtain ⟨_, isOwn, _, before⟩ := Lines.exists_line_of_lineAt _ _ _ looked
  cases isLine.symm.trans isOwn
  generalize leader_eq : leaderOf (content.slice line.start noticeStart) = leader
  refine ⟨line, ?_⟩
  rw [lastLeaderStop]
  cases reads : licenseBelow content number leader with
  | none =>
    have short : leader.length ≤ noticeStart - line.start := by
      rw [← leader_eq]
      exact Nat.le_trans (isPrefix_leaderOf _).length_le (List.length_take_le _ _)
    refine ⟨number, isLine, Lines.lineAt_eq_ok content number line isLine _ ?_ ?_,
      (List.getElem?_eq_some_iff.mp isLine).1⟩ <;>
      simp only [Option.map_none, Option.getD_none] <;> omega
  | some license =>
    obtain ⟨next, isNext, readsNext⟩ := Option.bind_eq_some_iff.mp reads
    obtain ⟨nextAfter, nextBefore⟩ := licenseOnLine?_bounds _ _ _ readsNext
    rw [LicenseLine.textSpan] at nextBefore
    dsimp only at nextBefore
    refine ⟨number + 1, isLine, Lines.lineAt_eq_ok content (number + 1) next isNext _ ?_ ?_,
      (List.getElem?_eq_some_iff.mp isNext).1⟩ <;>
      simp only [Option.map_some, Option.getD_some] <;> omega

/-- How the search for the headers of a text can come out. It fails where it comes to a header that
is blocked, and for no other reason; a license that is not listed has no long text; and the places
that are looked up, where a notice begins and where its last leader ends, are on lines. -/
structure Outcome (content : Text) : Prop where
  fails : ∀ error, all (Lines.ofText content) = .error error ↔ Stopped content 0 error
  unlisted : ∀ (identifier : Text) (position : Int), identifier ≠ Text.ofString "Apache-2.0" →
    identifier ∉ LicenseEntry.reservedWords →
    findLongForm (Lines.ofText content) identifier position = .ok none
  onLines : ∀ start noticeStart notice,
    Notice.find? content start = some (noticeStart, notice) →
      ∃ number leader line last, NoticeOn content start number leader ∧
        (Lines.ofText content).all[number]? = some line ∧
        (Lines.ofText content).lineAt (lastLeaderStop content number line leader) = .ok last ∧
        last < (Lines.ofText content).all.length

theorem outcome_all (content : Text) : Outcome content where
  fails := all_eq_error_iff content
  unlisted _ position notListed notReserved :=
    findLongForm_eq_none _ position notListed notReserved
  onLines _ _ _ finds := by
    obtain ⟨number, leader, _, noticeOn, _⟩ := exists_next?_eq finds
    obtain ⟨line, last, isLine, looked, inside⟩ := noticeOn.exists_last
    exact ⟨number, leader, line, last, noticeOn, isLine, looked, inside⟩

/-- A license with the name of something that the table of license texts keeps for itself stops
the search. -/
theorem all_fails_at_constructor :
    all (Lines.ofText
      "# Copyright (c) 2024 NVIDIA CORPORATION\n# SPDX-License-Identifier: constructor\nx\n") =
      .error (.reservedIdentifier "constructor") := by
  decide +kernel

end Header

end SourceLint.Copyright
