/-
This file proves what the headers of a text are like when the search for them completes. Each one
begins at or after the place where it was looked for and ends behind that place, on whose line only
white space is left then. So the next header is on a later line, the search comes to an end, the
headers follow one another without touching, and with the pieces between them they are the text.
-/
import SourceLint.Proofs.Copyright.Found

namespace SourceLint.Copyright

/-! ### The search -/

/-- Headers that are found one after another from a position on, each behind the place where it was
looked for, until no notice is left. -/
inductive Header.Searched (content : Text) : Nat → List Header → Prop where
  | done (start : Nat) (isLast : next? (Lines.ofText content) start = .ok none) :
      Searched content start []
  | found (start : Nat) (header : Header) (rest : List Header)
      (isNext : next? (Lines.ofText content) start = .ok (some header))
      (progress : start < header.stop) (others : Searched content header.stop rest) :
      Searched content start (header :: rest)

namespace Header

/-- A header ends behind the place where it was looked for. -/
theorem stop_bounds (content : Text) (start : Nat) (header : Header)
    (isNext : next? (Lines.ofText content) start = .ok (some header)) :
    start < header.stop ∧ header.stop ≤ content.length := by
  obtain ⟨after, inText⟩ := in_of_next? content start header isNext
  have positive : 0 < header.notice.length := by
    obtain ⟨written, _, _, isWritten⟩ := Notice.exists_written_of_read? _ _ inText.reads
    exact isWritten.length ▸ Nat.lt_of_lt_of_le (by decide) isWritten.length_pos
  have line := inText.noticeStart_le_lineStop
  obtain ⟨head, last, isLast, _, inLast⟩ := inText.headStop_in_line
  have stop := inText.headStop_le_stop
  refine ⟨by omega, ?_⟩
  cases isLongForm : header.longForm with
  | some longForm =>
    rw [Header.stop, isLongForm]
    exact (inText.longForm longForm isLongForm).1.2.1
  | none =>
    rw [Header.stop, isLongForm]
    exact Nat.le_trans inLast (Lines.stop_le_length content last isLast)

/-- The count of the search is never used up, since each header takes at least one unit. -/
theorem searched_of_someFrom (content : Text) (count start : Nat) (headers : List Header)
    (enough : content.length ≤ start + count)
    (finds : someFrom (Lines.ofText content) count start = .ok headers) :
    Searched content start headers := by
  induction count generalizing start headers with
  | zero =>
    cases finds
    refine .done start ((next?_eq_none_iff _ _).mpr ?_)
    rw [Nat.add_zero] at enough
    rw [List.drop_eq_nil_of_le enough]
    exact Notice.free_of_length_lt [] (by decide)
  | succ count inductionHypothesis =>
    rw [someFrom] at finds
    split at finds
    case h_1 => cases finds
    case h_2 isLast =>
      cases finds
      exact .done start isLast
    case h_3 header isNext =>
      obtain ⟨rest, others, rfl⟩ := exists_of_map_eq_ok _ _ _ finds
      have progress := (stop_bounds content start header isNext).1
      exact .found start header rest isNext progress
        (inductionHypothesis header.stop rest (by omega) others)

theorem Searched.someFrom_eq {content : Text} {start : Nat} {headers : List Header}
    (searched : Searched content start headers) (count : Nat)
    (enough : content.length ≤ start + count) :
    someFrom (Lines.ofText content) count start = .ok headers := by
  induction searched generalizing count with
  | done start isLast =>
    cases count with
    | zero => rfl
    | succ count => rw [someFrom, isLast]
  | found start header rest isNext progress _ inductionHypothesis =>
    have inText := (stop_bounds content start header isNext).2
    cases count with
    | zero => omega
    | succ count =>
      rw [someFrom, isNext]
      dsimp only
      rw [inductionHypothesis count (by omega)]
      rfl

/-- The headers of a text are those that the search from its start finds. -/
theorem all_eq_ok_iff (content : Text) (headers : List Header) :
    all (Lines.ofText content) = .ok headers ↔ Searched content 0 headers := by
  have enough : content.length ≤ 0 + content.length := Nat.le_of_eq (Nat.zero_add _).symm
  exact ⟨searched_of_someFrom content _ 0 headers enough, fun searched =>
    searched.someFrom_eq _ enough⟩

/-- A search begins with the text, or where nothing but white space is left of a line. -/
def BeginsSearch (content : Text) (start : Nat) : Prop :=
  start = 0 ∨ Text.EndsLine (content.drop start)

theorem Searched.exists_found {content : Text} {start : Nat} {header : Header} {rest : List Header}
    (searched : Searched content start (header :: rest)) (begins : BeginsSearch content start) :
    (∃ above before line below, Found content start header above before line below) ∧
      Searched content header.stop rest ∧ Text.EndsLine (content.drop header.stop) := by
  cases searched with
  | found _ _ _ isNext _ others =>
    obtain ⟨above, before, line, below, isFound⟩ :=
      Header.exists_found content start header begins isNext
    exact ⟨⟨above, before, line, below, isFound⟩, others, isFound.endsLine⟩

/-! ### The parts of a header -/

/-- The parts of a header lie within each other and after one another: the tag before the notice,
the years in the notice, and the notice with the rest of its line in one line; then the license
identifier on a later line; and then the long text, which begins where a later line does, or where
one ends. -/
structure Nested (content : Text) (header : Header) : Prop where
  notEmpty : header.span.start < header.span.stop
  inText : header.span.stop ≤ content.length
  tag : ∀ tag, header.tagSpan? = some tag →
    tag.start = header.span.start ∧ tag.start < tag.stop ∧ tag.stop = header.noticeSpan.start
  noTag : header.tagSpan? = none → header.noticeSpan.start = header.span.start
  line : ∃ line ∈ (Lines.ofText content).all, line.start ≤ header.span.start ∧
    header.noticeSpan.start = header.lineSpan.start ∧
    header.noticeSpan.stop ≤ header.lineSpan.stop ∧ header.lineSpan.stop = line.stop ∧
    header.lineSpan.stop ≤ header.span.stop
  years : header.noticeSpan.start < header.yearsSpan.start ∧
    header.yearsSpan.start < header.yearsSpan.stop ∧
    header.yearsSpan.stop < header.noticeSpan.stop
  firstYear : header.firstYearSpan.start = header.yearsSpan.start ∧
    header.firstYearSpan.start < header.firstYearSpan.stop ∧
    header.firstYearSpan.stop ≤ header.yearsSpan.stop
  lastYear : ∀ year, header.lastYearSpan? = some year →
    header.firstYearSpan.stop < year.start ∧ year.start < year.stop ∧
      year.stop = header.yearsSpan.stop
  license : ∀ license, header.license = some license →
    ∃ line ∈ (Lines.ofText content).all, header.lineSpan.stop < line.start ∧
      line.start ≤ license.tagSpan.start ∧ license.tagSpan.start < license.tagSpan.stop ∧
      license.tagSpan.stop = license.textSpan.start ∧
      license.textSpan.start < license.textSpan.stop ∧ license.textSpan.stop ≤ line.stop ∧
      license.textSpan.stop ≤ header.span.stop
  longForm : ∀ longForm, header.longForm = some longForm →
    (∃ line ∈ (Lines.ofText content).all, header.lineSpan.stop < line.start ∧
      (∀ license, header.license = some license → license.textSpan.stop < line.start) ∧
      (longForm.start = line.start ∨ longForm.start = line.stop)) ∧
    longForm.start ≤ longForm.stop ∧ longForm.stop = header.span.stop

theorem Found.nested {content above before line below : Text} {start : Nat} {header : Header}
    (isFound : Found content start header above before line below) : Nested content header := by
  have inText := isFound.inText
  obtain ⟨leadPositive, firstLength, lastLength, inNotice⟩ :=
    Notice.measures_of_read? _ _ isFound.reads
  obtain ⟨after, stopInText⟩ := stop_bounds content start header isFound.next?_eq
  obtain ⟨own, isOwn, ownStart, startBefore, noticeStop, lineStop⟩ := inText.line
  have lineStop_le := inText.headStop_in_line.1
  have headStop_le := inText.headStop_le_stop
  have years : header.notice.firstYear.length ≤ header.notice.yearsLength := Nat.le_add_right _ _
  obtain ⟨licensePlace, longFormPlace⟩ := isFound.places
  refine {
    notEmpty := ?_, inText := stopInText, tag := ?_, noTag := ?_, line := ?_, years := ?_,
    firstYear := ?_, lastYear := ?_, license := ?_, longForm := ?_ }
  · dsimp only [span]
    omega
  · intro tag isTag
    obtain ⟨tagStart, isTagStart, rfl⟩ := Option.map_eq_some_iff.mp isTag
    have start_eq : header.start = tagStart := by rw [Header.start, isTagStart]; rfl
    refine ⟨start_eq.symm, ?_, rfl⟩
    obtain ⟨_, _, made⟩ := isFound.made
    rw [made] at isTagStart
    obtain ⟨length, reads, same⟩ := Option.map_eq_some_iff.mp isTagStart
    obtain ⟨leader, count, whole, rfl⟩ := exists_of_tagLength? before length reads
    have tag : noticeTag.length = 23 := by decide
    have noticeStart := isFound.noticeStart_eq
    have bound := congrArg List.length whole
    simp only [List.length_append, Text.spaces, List.length_replicate] at bound
    dsimp only
    omega
  · intro noTag
    rw [tagSpan?, Option.map_eq_none_iff] at noTag
    show header.noticeStart = header.start
    rw [Header.start, noTag]
    rfl
  · exact ⟨own, isOwn, ownStart, rfl, Nat.le_trans noticeStop (Nat.le_of_eq lineStop.symm),
      lineStop, Nat.le_trans lineStop_le headStop_le⟩
  · dsimp only [noticeSpan, yearsSpan, yearsStart]
    omega
  · dsimp only [firstYearSpan, yearsSpan]
    omega
  · intro year isYear
    obtain ⟨last, isLast, rfl⟩ := Option.map_eq_some_iff.mp isYear
    have lastLength := lastLength last isLast
    have yearsLength : header.notice.yearsLength = 4 + (1 + 4) := by
      rw [Notice.yearsLength, isLast, firstLength, ← lastLength]
    dsimp only [firstYearSpan, yearsSpan]
    omega
  · intro license isLicense
    obtain ⟨next, isNext, beyond, start_eq, isIdentifier, count, blanks, whole, tagLength, _⟩ :=
      licensePlace license isLicense
    have positive := List.length_pos_iff.mpr isIdentifier.notEmpty
    have headStop : header.headStop = license.textSpan.stop := by rw [Header.headStop, isLicense]
    have tag : licenseTag.length = 24 := by decide
    have length := congrArg List.length whole
    simp only [List.length_append, Text.spaces, List.length_replicate] at length
    have stop : next.stop = next.start + next.text.length := rfl
    refine ⟨next, isNext, beyond, ?_, ?_, rfl, ?_, ?_, headStop ▸ headStop_le⟩
    · dsimp only [LicenseLine.tagSpan]
      omega
    · dsimp only [LicenseLine.tagSpan]
      omega
    · dsimp only [LicenseLine.textSpan]
      omega
    · dsimp only [LicenseLine.textSpan]
      omega
  · intro longForm isLongForm
    obtain ⟨first, isFirst, _, _, beyond, starts, _⟩ := longFormPlace longForm isLongForm
    refine ⟨⟨first, isFirst, Nat.lt_of_le_of_lt lineStop_le beyond,
      fun license isLicense => ?_, starts⟩,
      (inText.longForm longForm isLongForm).1.1, ?_⟩
    · rwa [Header.headStop, isLicense] at beyond
    · show longForm.stop = header.stop
      rw [Header.stop, isLongForm]

/-! ### Headers and pieces -/

/-- Headers are apart: on the line where one ends none begins. -/
theorem Searched.apart {content : Text} {start : Nat} {headers : List Header}
    (searched : Searched content start headers) (begins : BeginsSearch content start) :
    headers.Pairwise (fun earlier later => earlier.span.stop < later.span.start) ∧
      (Text.EndsLine (content.drop start) → ∀ header ∈ headers, start < header.span.start) := by
  induction searched with
  | done => exact ⟨.nil, fun _ header member => absurd member List.not_mem_nil⟩
  | found start header rest isNext progress others inductionHypothesis =>
    obtain ⟨above, before, line, below, isFound⟩ :=
      Header.exists_found content start header begins isNext
    obtain ⟨restApart, restBeyond⟩ := inductionHypothesis (Or.inr isFound.endsLine)
    have beyond := restBeyond isFound.endsLine
    refine ⟨.cons beyond restApart, fun ends later member => ?_⟩
    have first : start < header.span.start := by
      have onLater := ends.length_lt isFound.around (Notice.head?_of_read? _ _ isFound.reads)
        (by decide) (Nat.le_trans isFound.start_le (Nat.le_add_right _ _))
      rw [span, isFound.start_eq]
      dsimp only
      omega
    rcases List.mem_cons.mp member with rfl | inRest
    · exact first
    · exact Nat.lt_trans progress (beyond later inRest)

theorem Searched.inText {content : Text} {start : Nat} {headers : List Header}
    (searched : Searched content start headers) : ∀ header ∈ headers, header.In content := by
  induction searched with
  | done => exact fun header member => absurd member List.not_mem_nil
  | found start header rest isNext _ _ inductionHypothesis =>
    exact List.forall_mem_cons.mpr ⟨(in_of_next? content start header isNext).2,
      inductionHypothesis⟩

theorem Searched.nested {content : Text} {start : Nat} {headers : List Header}
    (searched : Searched content start headers) (begins : BeginsSearch content start) :
    ∀ header ∈ headers, Nested content header := by
  induction searched with
  | done => exact fun header member => absurd member List.not_mem_nil
  | found start header rest isNext _ _ inductionHypothesis =>
    obtain ⟨above, before, line, below, isFound⟩ :=
      Header.exists_found content start header begins isNext
    exact List.forall_mem_cons.mpr ⟨isFound.nested, inductionHypothesis (Or.inr isFound.endsLine)⟩

/-- The pieces of a text with the headers between them are the text. -/
theorem Searched.flatten_pieces {content : Text} {start : Nat} {headers : List Header}
    (searched : Searched content start headers) (begins : BeginsSearch content start) :
    (List.zipWith (· ++ ·) (piecesFrom content start headers)
      (headers.map (fun header => header.span.text content) ++ [[]])).flatten =
        content.drop start := by
  induction searched with
  | done => simp [piecesFrom]
  | found start header rest isNext progress others inductionHypothesis =>
    obtain ⟨above, before, line, below, isFound⟩ :=
      Header.exists_found content start header begins isNext
    have before := isFound.start_le
    have proper : header.start < header.stop := isFound.nested.notEmpty
    have start_eq := isFound.start_eq
    rw [piecesFrom, List.map_cons, List.cons_append, List.zipWith_cons_cons, List.flatten_cons,
      inductionHypothesis (Or.inr isFound.endsLine), Span.text, span, List.append_assoc]
    dsimp only
    rw [Text.slice_append_drop _ _ _ (Nat.le_of_lt proper), Text.slice_append_drop _ _ _ (by omega)]

/-- When the search for the headers of a text completes, each was looked for where the one before it
ended and ends behind that place, has its parts in order, and ends on a line before the next one;
the pieces with the headers between them are the text. -/
theorem searched_nested_apart_of_all (content : Text) (headers : List Header)
    (finds : all (Lines.ofText content) = .ok headers) :
    Searched content 0 headers ∧ (∀ header ∈ headers, Nested content header) ∧
      headers.Pairwise (fun earlier later => earlier.span.stop < later.span.start) ∧
      (List.zipWith (· ++ ·) (pieces content headers)
        (headers.map (fun header => header.span.text content) ++ [[]])).flatten = content := by
  have searched := (all_eq_ok_iff content headers).mp finds
  have begins : BeginsSearch content 0 := Or.inl rfl
  exact ⟨searched, searched.nested begins, (searched.apart begins).1,
    searched.flatten_pieces begins⟩

/-- A header with both tags, and below it a notice that starts a comment of its own. -/
def taggedAndPlain : Text :=
  "# SPDX-FileCopyrightText: Copyright (c) 2019-2020 NVIDIA CORPORATION\n" ++
    "# SPDX-License-Identifier: MIT \n// Copyright 2021, NVIDIA Corporation & affiliates"

theorem searched_nested_taggedAndPlain :
    ∃ headers, all (Lines.ofText taggedAndPlain) = .ok headers ∧
      headers.map Header.span = [⟨2, 99⟩, ⟨104, 151⟩] ∧ Searched taggedAndPlain 0 headers ∧
      ∀ header ∈ headers, Nested taggedAndPlain header := by
  have finds : all (Lines.ofText taggedAndPlain) = .ok [
      ⟨26, ⟨14, "2019", some "2020", 42⟩, 68, some 2, "# ", some ⟨71, 25, "MIT"⟩, none⟩,
      ⟨104, ⟨10, "2021", none, 34⟩, 151, none, "// ", none, none⟩] := by decide +kernel
  obtain ⟨searched, nested, _⟩ := searched_nested_apart_of_all taggedAndPlain _ finds
  exact ⟨_, finds, by decide +kernel, searched, nested⟩

end Header

end SourceLint.Copyright
