/-
This file proves what the check of copyright years comes to when a file has changed in more than its
headers: the newest notice has to name the current year. There is a warning exactly if no notice
does, it changes the last of the newest notices, and the fixed file has the same pieces and nothing
more to say.
-/
import SourceLint.Proofs.Check.CopyrightHistory
import SourceLint.Proofs.Text.Digits

namespace SourceLint.Copyright

/-! ### The newest notice -/

/-- The newest of some headers is the last of those with the greatest last year. -/
structure IsNewest (headers before : List Header) (newest : Header) (after : List Header) :
    Prop where
  split : headers = before ++ newest :: after
  before_le : ∀ header ∈ before, header.notice.lastYearValue ≤ newest.notice.lastYearValue
  after_lt : ∀ header ∈ after, header.notice.lastYearValue < newest.notice.lastYearValue

theorem IsNewest.le {headers before after : List Header} {newest : Header}
    (isNewest : IsNewest headers before newest after) :
    ∀ header ∈ headers, header.notice.lastYearValue ≤ newest.notice.lastYearValue := by
  rw [isNewest.split, List.forall_mem_append, List.forall_mem_cons]
  exact ⟨isNewest.before_le, Nat.le_refl _, fun header member =>
    Nat.le_of_lt (isNewest.after_lt header member)⟩

theorem exists_isNewest (best : Header) (headers : List Header) :
    ∃ before after, IsNewest (best :: headers) before (newestOf best headers) after := by
  induction headers generalizing best with
  | nil => exact ⟨[], [], rfl, by simp, by simp⟩
  | cons header rest inductionHypothesis =>
    rw [newestOf]
    split
    case isTrue notBefore =>
      obtain ⟨before, after, isNewest⟩ := inductionHypothesis header
      have bound := Nat.le_trans notBefore (isNewest.le header List.mem_cons_self)
      refine ⟨best :: before, after, ?_, ?_, isNewest.after_lt⟩
      · rw [isNewest.split, List.cons_append]
      · exact List.forall_mem_cons.mpr ⟨bound, isNewest.before_le⟩
    case isFalse before =>
      obtain ⟨earlier, after, isNewest⟩ := inductionHypothesis best
      have bound :=
        Nat.lt_of_lt_of_le (Nat.lt_of_not_le before) (isNewest.le best List.mem_cons_self)
      generalize newestOf best rest = newest at isNewest bound ⊢
      cases earlier with
      | nil =>
        obtain ⟨same, rfl⟩ := List.cons.inj isNewest.split
        refine ⟨[], header :: rest, ?_, by simp, ?_⟩
        · rw [← same, List.nil_append]
        · exact List.forall_mem_cons.mpr ⟨bound, isNewest.after_lt⟩
      | cons first others =>
        obtain ⟨rfl, restSplit⟩ := List.cons.inj isNewest.split
        refine ⟨best :: header :: others, after, ?_, ?_, isNewest.after_lt⟩
        · rw [restSplit]
          rfl
        · obtain ⟨bestLe, othersLe⟩ := List.forall_mem_cons.mp isNewest.before_le
          exact List.forall_mem_cons.mpr
            ⟨bestLe, List.forall_mem_cons.mpr ⟨Nat.le_of_lt bound, othersLe⟩⟩

/-! ### A notice brought up to date -/

/-- The line of a header with a notice that names a year as the last one. -/
def renewedLine (content : Text) (year : Nat) (header : Header) : Text :=
  Notice.inFull header.notice.firstYear (Text.ofNat year) ++
    content.slice header.noticeSpan.stop header.lineStop

/-- The warning on the newest of the headers, if it does not name the current year. -/
def yearWarning (year : Nat) (header : Header) : Warning :=
  ⟨header.yearsSpan, "copyright is out of date",
    [⟨header.noticeSpan, Notice.inFull header.notice.firstYear (Text.ofNat year)⟩], []⟩

/-- A first year without a zero in front is written again as it was. -/
theorem ofNat_firstYearValue (text : Text) (notice : Notice)
    (reads : Notice.read? text = some notice)
    (noZero : notice.firstYear.head? ≠ some 0x30) :
    Notice.IsYear notice.firstYear ∧ Text.ofNat notice.firstYearValue = notice.firstYear := by
  obtain ⟨_, _, _, isWritten⟩ := Notice.exists_written_of_read? _ _ reads
  obtain ⟨length, digits⟩ := isWritten.firstYear
  have notEmpty : notice.firstYear ≠ [] := by
    intro empty
    rw [empty] at length
    cases length
  exact ⟨⟨length, digits⟩, Text.ofNat_digitsValue _ notEmpty digits noZero⟩

theorem isYear_ofNat (year : Nat) (fourDigits : 1000 ≤ year ∧ year ≤ 9999) :
    Notice.IsYear (Text.ofNat year) :=
  ⟨Text.length_ofNat year fourDigits.1 fourDigits.2, Text.isDigit_of_mem_ofNat year⟩

/-- What is said on the years of headers is said on the newest of them. -/
theorem exists_yearWarnings_eq (year : Nat) {content : Text} {headers : List Header}
    (searched : Header.Searched content 0 headers) (notEmpty : headers ≠ [])
    (noZero : ∀ header ∈ headers, header.notice.firstYear.head? ≠ some 0x30) :
    ∃ before newest after, IsNewest headers before newest after ∧
      yearWarnings year headers =
        if year ≤ newest.notice.lastYearValue then [] else [yearWarning year newest] := by
  obtain ⟨header, rest, rfl⟩ := List.exists_cons_of_ne_nil notEmpty
  obtain ⟨before, after, isNewest⟩ := exists_isNewest header rest
  have member : newestOf header rest ∈ header :: rest := newestOf_mem header rest
  obtain ⟨_, reads⟩ := searched.line_of_mem (Or.inl rfl) _ member
  have sameYear := (ofNat_firstYearValue _ _ reads (noZero _ member)).2
  refine ⟨before, _, after, isNewest, ?_⟩
  rw [yearWarnings, yearWarning, Notice.inFull]
  dsimp only
  rw [sameYear]

/-- Nothing is said on the years if some notice names the current one, or a later one. -/
theorem yearWarnings_eq_nil (year : Nat) {content : Text} {headers : List Header}
    (searched : Header.Searched content 0 headers) (header : Header) (member : header ∈ headers)
    (current : year ≤ header.notice.lastYearValue) : yearWarnings year headers = [] := by
  obtain ⟨first, rest, rfl⟩ := List.exists_cons_of_ne_nil (List.ne_nil_of_mem member)
  obtain ⟨before, after, isNewest⟩ := exists_isNewest first rest
  rw [yearWarnings]
  dsimp only
  rw [if_pos (Nat.le_trans current (isNewest.le header member))]

/-! ### One line brought up to date -/

/-- Headers with the lines that they have. -/
def ownLines (content : Text) (headers : List Header) : List (Header × Text) :=
  headers.map fun header => (header, header.lineSpan.text content)

/-- Headers with the lines that they have, but for one that is brought up to date. -/
def renewedLines (content : Text) (year : Nat) (before : List Header) (newest : Header)
    (after : List Header) : List (Header × Text) :=
  ownLines content before ++ (newest, renewedLine content year newest) :: ownLines content after

theorem ownLines_fst (content : Text) (headers : List Header) :
    (ownLines content headers).map Prod.fst = headers := by
  rw [ownLines, List.map_map]
  exact List.map_id headers

theorem renewedLines_fst (content : Text) (year : Nat) (before : List Header) (newest : Header)
    (after : List Header) :
    (renewedLines content year before newest after).map Prod.fst = before ++ newest :: after := by
  rw [renewedLines, List.map_append, List.map_cons, ownLines_fst, ownLines_fst]

/-- What stands on the line of a notice: the notice, and the rest of the line. -/
theorem exists_written_on_line {content : Text} {header : Header}
    (reads : Notice.read? (header.lineSpan.text content) = some header.notice) :
    ∃ written, header.notice.Written written ∧ header.lineSpan.text content =
      written ++ content.slice header.noticeSpan.stop header.lineStop := by
  obtain ⟨written, rest, whole, isWritten⟩ := Notice.exists_written_of_read? _ _ reads
  have dropped := congrArg (List.drop header.notice.length) whole
  rw [← isWritten.length, List.drop_left, isWritten.length, Span.text, Text.slice, List.drop_take,
    List.drop_drop] at dropped
  refine ⟨written, isWritten, ?_⟩
  rw [whole, ← dropped, Text.slice, Header.noticeSpan, Header.lineSpan, Nat.sub_sub]

theorem reads_renewedLine {content : Text} {header : Header} (year : Nat)
    (fourDigits : 1000 ≤ year ∧ year ≤ 9999)
    (reads : Notice.read? (header.lineSpan.text content) = some header.notice) :
    Notice.read? (renewedLine content year header) =
      some ⟨14, header.notice.firstYear, some (Text.ofNat year), 43⟩ := by
  obtain ⟨_, isWritten, _⟩ := exists_written_on_line reads
  exact (Notice.written_inFull isWritten.firstYear (isYear_ofNat year fourDigits)).read?_append _

/-- A line that is brought up to date can take the place of the one before. -/
theorem admits_renewedLine {content : Text} {header : Header} (year : Nat)
    (fourDigits : 1000 ≤ year ∧ year ≤ 9999) (isOneLine : (header.lineSpan.text content).OneLine)
    (reads : Notice.read? (header.lineSpan.text content) = some header.notice) :
    Header.Admits content header (renewedLine content year header) := by
  obtain ⟨written, isWritten, whole⟩ := exists_written_on_line reads
  have renewed := Notice.written_inFull isWritten.firstYear (isYear_ofNat year fourDigits)
  refine ⟨renewed.isOneLine.append fun unit member => isOneLine unit ?_,
    ⟨_, reads_renewedLine year fourDigits reads⟩, fun _ breaks => ?_⟩
  · rw [whole]
    exact List.mem_append_right _ member
  · rw [whole, isWritten.breaksWithin_append] at breaks
    exact (renewed.breaksWithin_append _).mpr breaks

/-- A line can take its own place. -/
theorem admits_ownLines {content : Text} {headers : List Header}
    (lines : ∀ header ∈ headers, (header.lineSpan.text content).OneLine ∧
      Notice.read? (header.lineSpan.text content) = some header.notice) :
    ∀ pair ∈ ownLines content headers, Header.Admits content pair.1 pair.2 := by
  rw [ownLines, List.forall_mem_map]
  exact fun header member =>
    ⟨(lines header member).1, ⟨_, (lines header member).2⟩, fun _ breaks => breaks⟩

section Renewed

variable {content : Text} {before after : List Header} {newest : Header}
  (searched : Header.Searched content 0 (before ++ newest :: after))

include searched

theorem admits_renewedLines (year : Nat) (fourDigits : 1000 ≤ year ∧ year ≤ 9999) :
    ∀ pair ∈ renewedLines content year before newest after,
      Header.Admits content pair.1 pair.2 := by
  have lines := searched.line_of_mem (Or.inl rfl)
  rw [List.forall_mem_append, List.forall_mem_cons] at lines
  obtain ⟨beforeLines, ⟨isOneLine, reads⟩, afterLines⟩ := lines
  rw [renewedLines, List.forall_mem_append, List.forall_mem_cons]
  exact ⟨admits_ownLines beforeLines, admits_renewedLine year fourDigits isOneLine reads,
    admits_ownLines afterLines⟩

/-- The lines that stay need not be put in, and of the line brought up to date no more than the
notice. -/
theorem splice_renewedLines (year : Nat) :
    Linter.splice content 0 (Header.relines (renewedLines content year before newest after)) =
      content.take newest.noticeSpan.start ++
        Notice.inFull newest.notice.firstYear (Text.ofNat year) ++
        content.drop newest.noticeSpan.stop := by
  have row : Span.Row 0 content.length 0
      ((Header.relines (renewedLines content year before newest after)).map Replacement.span) := by
    rw [Header.spans_relines, renewedLines_fst]
    exact searched.row_lines (Nat.zero_le _)
  have nodup := searched.nodup_lines
  rw [List.map_append, List.map_cons, List.nodup_middle, List.nodup_cons, List.mem_append, not_or]
    at nodup
  obtain ⟨⟨notBefore, notAfter⟩, _⟩ := nodup
  have stays (others : List Header) (unlike : newest.lineSpan ∉ others.map Header.lineSpan) :
      (Header.relines (ownLines content others)).filter
        (fun replacement => replacement.span = newest.lineSpan) = [] := by
    rw [List.filter_eq_nil_iff, Header.relines, ownLines, List.map_map, List.forall_mem_map]
    intro header member same
    exact unlike (List.mem_map.mpr ⟨header, member, by simpa using same⟩)
  have only : (Header.relines (renewedLines content year before newest after)).filter
      (fun replacement => replacement.span = newest.lineSpan) =
        [⟨newest.lineSpan, renewedLine content year newest⟩] := by
    have parts : Header.relines (renewedLines content year before newest after) =
        Header.relines (ownLines content before) ++
          ⟨newest.lineSpan, renewedLine content year newest⟩ ::
            Header.relines (ownLines content after) := by
      rw [Header.relines, renewedLines, List.map_append, List.map_cons]
      rfl
    rw [parts, List.filter_append, List.filter_cons_of_pos (by simp), stays before notBefore,
      stays after notAfter, List.nil_append]
  have same : ∀ replacement ∈ Header.relines (renewedLines content year before newest after),
      decide (replacement.span = newest.lineSpan) = false →
        replacement.newText = replacement.span.text content := by
    rw [Header.relines, List.forall_mem_map, renewedLines, List.forall_mem_append,
      List.forall_mem_cons]
    refine ⟨?_, fun other => absurd other (by simp), ?_⟩ <;>
    · rw [ownLines, List.forall_mem_map]
      exact fun header _ _ => rfl
  have inText := searched.inText newest (List.mem_append_right _ List.mem_cons_self)
  have forward : newest.noticeSpan.stop ≤ newest.lineStop := inText.noticeStart_le_lineStop
  calc
    _ = Linter.splice content 0 [⟨newest.lineSpan, renewedLine content year newest⟩] := by
      rw [← only]
      exact (Linter.splice_filter content 0 _ row _ same).symm
    _ = content.take newest.noticeStart ++ renewedLine content year newest ++
          content.drop newest.lineStop := rfl
    _ = _ := by
      rw [renewedLine]
      simp only [List.append_assoc]
      rw [Text.slice_append_drop _ _ _ forward]
      rfl

/-- The headers with one line brought up to date: the same pieces, and a notice that names the
year. -/
theorem all_renewed (year : Nat) (fourDigits : 1000 ≤ year ∧ year ≤ 9999) {fixed : Text}
    (isFixed : fixed = content.take newest.noticeSpan.start ++
      Notice.inFull newest.notice.firstYear (Text.ofNat year) ++
      content.drop newest.noticeSpan.stop) :
    ∃ fixedHeaders, Header.Searched fixed 0 fixedHeaders ∧
      Header.pieces fixed fixedHeaders = Header.pieces content (before ++ newest :: after) ∧
      ∃ header ∈ fixedHeaders, header.notice.lastYearValue = year := by
  have given := renewedLines_fst content year before newest after
  obtain ⟨fixedHeaders, finds, pieces, lines⟩ := Header.all_relined content
    (renewedLines content year before newest after)
    (given.symm ▸ (Header.all_eq_ok_iff _ _).mpr searched)
    (admits_renewedLines searched year fourDigits)
  rw [given] at pieces
  rw [splice_renewedLines searched, ← isFixed] at finds pieces lines
  have fixedSearched := (Header.all_eq_ok_iff _ _).mp finds
  have inLines : renewedLine content year newest ∈
      fixedHeaders.map fun header => header.lineSpan.text fixed := by
    rw [lines, renewedLines, List.map_append, List.map_cons]
    exact List.mem_append_right _ List.mem_cons_self
  obtain ⟨header, member, isLine⟩ := List.mem_map.mp inLines
  obtain ⟨_, reads⟩ := fixedSearched.line_of_mem (Or.inl rfl) header member
  obtain ⟨_, newestReads⟩ := searched.line_of_mem (Or.inl rfl) newest
    (List.mem_append_right _ List.mem_cons_self)
  rw [isLine, reads_renewedLine year fourDigits newestReads] at reads
  refine ⟨fixedHeaders, fixedSearched, pieces, header, member, ?_⟩
  rw [← Option.some.inj reads]
  exact Text.digitsValue_ofNat year

end Renewed

/-! ### The check -/

/-- What a file was has no part in its years if it has changed in more than its headers. -/
def ChangedBeyond (change : Change) (content : Text) (headers : List Header) : Prop :=
  ∀ oldContent, change.oldContent = some oldContent →
    ∃ oldHeaders, Header.all (Lines.ofText oldContent) = .ok oldHeaders ∧
      Header.pieces oldContent oldHeaders ≠ Header.pieces content headers

theorem check_of_changedBeyond (policy : Policy)
    (noTags : policy.spdx = false ∧ policy.forceSpdx = false) (year : Nat) (change : Change)
    (filename content : Text) (regions : List Region) (headers : List Header)
    (finds : Header.all (Lines.ofText content) = .ok headers)
    (beyond : ChangedBeyond change content headers) :
    check policy year change ⟨filename, Lines.ofText content, regions⟩ =
      .ok (yearWarnings year headers) := by
  have changed : change.oldContent ≠ some content := by
    intro same
    obtain ⟨oldHeaders, oldFinds, unlike⟩ := beyond content same
    cases finds.symm.trans oldFinds
    exact unlike rfl
  rw [check_of_noTags policy noTags year change filename content regions headers finds,
    if_neg changed, historyWarnings]
  cases isOld : change.oldContent with
  | none => rfl
  | some oldContent =>
    obtain ⟨oldHeaders, oldFinds, unlike⟩ := beyond oldContent isOld
    simp only [oldFinds, bind, Except.bind, if_neg unlike]
    rfl

/-- The check of a file with notices that has changed in more than its headers: the last of the
newest notices is brought up to date, if it is not. -/
theorem fix_newest_of_changedBeyond (policy : Policy)
    (noTags : policy.spdx = false ∧ policy.forceSpdx = false) (year : Nat)
    (fourDigits : 1000 ≤ year ∧ year ≤ 9999) (change : Change) (filename content : Text)
    (regions : List Region) (headers : List Header)
    (finds : Header.all (Lines.ofText content) = .ok headers) (notEmpty : headers ≠ [])
    (beyond : ChangedBeyond change content headers)
    (noZero : ∀ header ∈ headers, header.notice.firstYear.head? ≠ some 0x30) :
    ∃ warnings, check policy year change ⟨filename, Lines.ofText content, regions⟩ = .ok warnings ∧
      warnings.length ≤ 1 ∧
      (warnings ≠ [] ↔ ∀ header ∈ headers, header.notice.lastYearValue < year) ∧
      ((∀ warning ∈ warnings,
          Source.isEnabled ⟨filename, Lines.ofText content, regions⟩ warning = true) →
        ∃ fixed, (⟨⟨filename, Lines.ofText content, regions⟩, warnings⟩ : Linter).fix = .ok fixed ∧
          (warnings = [] → fixed = content) ∧
          (warnings ≠ [] → ∃ before newest after, IsNewest headers before newest after ∧
            fixed = content.take newest.noticeSpan.start ++
              Notice.inFull newest.notice.firstYear (Text.ofNat year) ++
              content.drop newest.noticeSpan.stop) ∧
          (∃ fixedHeaders, Header.all (Lines.ofText fixed) = .ok fixedHeaders ∧
            Header.pieces fixed fixedHeaders = Header.pieces content headers) ∧
          ∀ otherRegions,
            check policy year change ⟨filename, Lines.ofText fixed, otherRegions⟩ = .ok []) := by
  have searched := (Header.all_eq_ok_iff content headers).mp finds
  have checks := check_of_changedBeyond policy noTags year change filename content regions headers
    finds beyond
  obtain ⟨before, newest, after, isNewest, warnings⟩ :=
    exists_yearWarnings_eq year searched notEmpty noZero
  have member : newest ∈ headers := by
    rw [isNewest.split]
    exact List.mem_append_right _ List.mem_cons_self
  by_cases current : year ≤ newest.notice.lastYearValue
  · rw [warnings, if_pos current] at checks
    refine ⟨[], checks, Nat.zero_le _, ⟨fun other => absurd rfl other, fun past => ?_⟩, fun _ =>
      ⟨content, ?_, fun _ => rfl, fun other => absurd rfl other, ⟨headers, finds, rfl⟩,
      fun otherRegions => ?_⟩⟩
    · exact absurd current (Nat.not_le_of_lt (past newest member))
    · exact Linter.fix_eq_splice _ [] (by simp) [] (List.Perm.refl _) (Nat.zero_le _) List.nodup_nil
    · rw [check_of_changedBeyond policy noTags year change filename content otherRegions headers
        finds beyond, warnings, if_pos current]
  · rw [warnings, if_neg current] at checks
    have past : ∀ header ∈ headers, header.notice.lastYearValue < year := fun header isHeader =>
      Nat.lt_of_le_of_lt (isNewest.le header isHeader) (Nat.lt_of_not_le current)
    refine ⟨_, checks, Nat.le_refl _, ⟨fun _ => past, fun _ => List.cons_ne_nil _ _⟩,
      fun enabled => ?_⟩
    have placed := (searched.inText newest member).placed_noticeSpan
    have split := isNewest.split
    rw [split] at searched
    obtain ⟨fixedHeaders, fixedSearched, pieces, header, isHeader, names⟩ :=
      all_renewed searched year fourDigits rfl
    rw [← split] at pieces
    have fixedFinds := (Header.all_eq_ok_iff _ _).mpr fixedSearched
    refine ⟨_, Linter.fix_eq_splice _ _ enabled _ (List.Perm.refl _)
        ⟨Nat.zero_le _, placed.1, placed.2.1⟩ (List.nodup_singleton _),
      fun none => absurd none (List.cons_ne_nil _ _),
      fun _ => ⟨before, newest, after, isNewest, rfl⟩,
      ⟨fixedHeaders, fixedFinds, pieces⟩, fun otherRegions => ?_⟩
    -- The pieces are the same, so the second run looks at the years again.
    have stillBeyond : ChangedBeyond change _ fixedHeaders := fun oldContent isOld => by
      obtain ⟨oldHeaders, oldFinds, unlike⟩ := beyond oldContent isOld
      exact ⟨oldHeaders, oldFinds, fun same => unlike (same.trans pieces)⟩
    have settled := yearWarnings_eq_nil year fixedSearched header isHeader (Nat.le_of_eq names.symm)
    exact (check_of_changedBeyond policy noTags year change filename _ otherRegions fixedHeaders
      fixedFinds stillBeyond).trans (congrArg Except.ok settled)

/-- A new file with two notices of the same last year. -/
def newNotices : Source :=
  Source.ofText "file.txt"
    "# Copyright (c) 2019-2022, NVIDIA CORPORATION\n# Copyright 2022 NVIDIA Corporation\nx\n"
    checkName

theorem fix_newNotices :
    ∃ headers warnings, Header.all newNotices.lines = .ok headers ∧
      (∀ header ∈ headers, header.notice.firstYear.head? ≠ some 0x30) ∧
      check {} 2024 ⟨.modified, none, some "x\n"⟩ newNotices = .ok warnings ∧
      (∀ warning ∈ warnings, newNotices.isEnabled warning = true) ∧
      ∃ fixed, (⟨newNotices, warnings⟩ : Linter).fix = .ok fixed ∧
        check {} 2024 ⟨.modified, none, some "x\n"⟩ (Source.ofText "file.txt" fixed checkName) =
          .ok [] := by
  have finds : Header.all newNotices.lines =
      .ok [⟨2, ⟨14, "2019", some "2022", 43⟩, 45, none, "# ", none, none⟩,
        ⟨48, ⟨10, "2022", none, 33⟩, 81, none, "# ", none, none⟩] := by decide +kernel
  have noZero : ∀ header ∈ [
      (⟨2, ⟨14, "2019", some "2022", 43⟩, 45, none, "# ", none, none⟩ : Header),
        ⟨48, ⟨10, "2022", none, 33⟩, 81, none, "# ", none, none⟩],
      header.notice.firstYear.head? ≠ some 0x30 := by decide
  have beyond : ChangedBeyond ⟨.modified, none, some "x\n"⟩ newNotices.content [
      (⟨2, ⟨14, "2019", some "2022", 43⟩, 45, none, "# ", none, none⟩ : Header),
        ⟨48, ⟨10, "2022", none, 33⟩, 81, none, "# ", none, none⟩] := by
    rintro oldContent ⟨⟩
    exact ⟨[], by decide +kernel, by decide +kernel⟩
  have checks : check {} 2024 ⟨.modified, none, some "x\n"⟩ newNotices =
      .ok [⟨⟨58, 62⟩, "copyright is out of date",
        [⟨⟨48, 81⟩, "Copyright (c) 2022-2024, NVIDIA CORPORATION"⟩], []⟩] := by decide +kernel
  have enabled : ∀ warning ∈ [(⟨⟨58, 62⟩, "copyright is out of date",
      [⟨⟨48, 81⟩, "Copyright (c) 2022-2024, NVIDIA CORPORATION"⟩], []⟩ : Warning)],
        newNotices.isEnabled warning = true := by decide +kernel
  obtain ⟨warnings, again, _, _, fixing⟩ :=
    fix_newest_of_changedBeyond {} ⟨rfl, rfl⟩ 2024 (by decide) ⟨.modified, none, some "x\n"⟩
      newNotices.filename newNotices.content newNotices.regions _ finds (by decide) beyond noZero
  cases checks.symm.trans again
  obtain ⟨fixed, fixes, _, _, _, settled⟩ := fixing enabled
  exact ⟨_, _, finds, noZero, checks, enabled, fixed, fixes, settled _⟩

end SourceLint.Copyright
