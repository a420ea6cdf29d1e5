/-
This file proves what the check of copyright years comes to when its warnings are fixed: the lines
of old notices come back, or the newest notice names the current year. In both cases the fixed text
has the headers of the given one with these changes on the lines of notices, so that the check has
nothing to say on it.
-/
import SourceLint.Proofs.Check.Copyright
import SourceLint.Proofs.Copyright.Relined

namespace SourceLint.Copyright

/-! ### Changed lines as replacements -/

namespace Header

theorem spans_relines (pairs : List (Header × Text)) :
    (relines pairs).map Replacement.span = (pairs.map Prod.fst).map lineSpan := by
  rw [relines, List.map_map, List.map_map]
  rfl

/-- The lines of notices are in a row. -/
theorem Searched.row_lines {content : Text} {start : Nat} {headers : List Header}
    (searched : Searched content start headers) (inside : start ≤ content.length) :
    Span.Row 0 content.length start (headers.map lineSpan) := by
  induction searched with
  | done => exact inside
  | found start header rest isNext _ _ inductionHypothesis =>
    obtain ⟨after, inText⟩ := in_of_next? content start header isNext
    have bound := inText.noticeStart_le_lineStop
    have forward := Nat.le_trans inText.headStop_in_line.1 inText.headStop_le_stop
    have behind := inductionHypothesis (stop_bounds content start header isNext).2
    refine ⟨after, ?_, behind.of_le forward⟩
    dsimp only [lineSpan]
    omega

/-- What is on the line of a notice that was found. -/
theorem Searched.line_of_mem {content : Text} {start : Nat} {headers : List Header}
    (searched : Searched content start headers) (begins : BeginsSearch content start) :
    ∀ header ∈ headers, (header.lineSpan.text content).OneLine ∧
      Notice.read? (header.lineSpan.text content) = some header.notice := by
  induction searched with
  | done => exact fun header member => absurd member List.not_mem_nil
  | found start header rest isNext _ _ inductionHypothesis =>
    obtain ⟨_, _, _, _, isFound⟩ := Header.exists_found content start header begins isNext
    refine List.forall_mem_cons.mpr ⟨?_, inductionHypothesis (Or.inr isFound.endsLine)⟩
    rw [isFound.lineText]
    exact ⟨isFound.isOneLine, isFound.reads⟩

/-- A notice is something on its line, and begins with its first letter. -/
theorem Searched.notice_bounds {content : Text} {start : Nat} {headers : List Header}
    (searched : Searched content start headers) (begins : BeginsSearch content start) :
    ∀ header ∈ headers, header.noticeStart < header.noticeSpan.stop ∧
      header.noticeSpan.stop ≤ header.lineStop ∧ header.lineStop ≤ content.length ∧
      content[header.noticeStart]? = some 0x43 := by
  intro header member
  have nested := searched.nested begins header member
  obtain ⟨line, isLine, _, _, within, stop, _⟩ := nested.line
  obtain ⟨leads, covers, inNotice⟩ := nested.years
  have isFirst := Notice.head?_of_read? _ _ (searched.line_of_mem begins header member).2
  rw [List.head?_eq_getElem?, Span.text] at isFirst
  have here := Text.getElem?_slice_of_eq_some _ _ _ _ _ isFirst
  have inText : header.lineStop ≤ content.length :=
    Nat.le_trans (Nat.le_of_eq stop) (Lines.stop_le_length content line isLine)
  exact ⟨Nat.lt_trans leads (Nat.lt_trans covers inNotice), within, inText, here⟩

theorem Searched.nodup_lines {content : Text} {headers : List Header}
    (searched : Searched content 0 headers) : (headers.map lineSpan).Nodup := by
  refine (searched.row_lines (Nat.zero_le _)).nodup fun span member => ?_
  obtain ⟨header, isHeader, rfl⟩ := List.mem_map.mp member
  obtain ⟨covers, within, _⟩ := searched.notice_bounds (Or.inl rfl) header isHeader
  exact Nat.lt_of_lt_of_le covers within

end Header

/-! ### The check without tags -/

/-- Without a demand for tags only the years are looked at, and only if the file has changed. -/
theorem check_of_noTags (policy : Policy) (noTags : policy.spdx = false ∧ policy.forceSpdx = false)
    (year : Nat) (change : Change) (filename content : Text) (regions : List Region)
    (headers : List Header) (finds : Header.all (Lines.ofText content) = .ok headers) :
    check policy year change ⟨filename, Lines.ofText content, regions⟩ =
      if change.oldContent = some content then .ok []
      else historyWarnings year change content headers := by
  have contentOf : Source.content ⟨filename, Lines.ofText content, regions⟩ = content := rfl
  rw [check]
  simp only [finds, noTags.1, noTags.2, Bool.false_or, Bool.false_and, bind, Except.bind, contentOf]
  by_cases same : change.oldContent = some content
  · simp [same, pure, Except.pure]
  · rw [if_pos (by simpa using same), if_neg same]
    cases historyWarnings year change content headers with
    | error error => rfl
    | ok warnings => simp [pure, Except.pure]

/-! ### Old notices -/

/-- Headers with the old lines of the notices in their places. -/
def oldLines (oldContent : Text) (old new : List Header) : List (Header × Text) :=
  (old.zip new).map fun pair => (pair.2, pair.1.lineSpan.text oldContent)

theorem oldLines_fst (oldContent : Text) (old new : List Header)
    (sameLength : old.length = new.length) :
    (oldLines oldContent old new).map Prod.fst = new := by
  rw [oldLines, List.map_map]
  exact List.map_snd_zip (Nat.le_of_eq sameLength.symm)

theorem oldLines_snd (oldContent : Text) (old new : List Header)
    (sameLength : old.length = new.length) :
    (oldLines oldContent old new).map Prod.snd =
      old.map fun header => header.lineSpan.text oldContent := by
  have olds := List.map_fst_zip (Nat.le_of_eq sameLength)
  rw [oldLines, List.map_map]
  calc
    _ = ((old.zip new).map Prod.fst).map fun header => header.lineSpan.text oldContent := by
      rw [List.map_map]
      rfl
    _ = _ := by rw [olds]

/-- The old lines can take the places of the new ones, but for what a line terminator may change. -/
theorem admits_oldLines {content oldContent : Text} {old new : List Header}
    (searched : Header.Searched oldContent 0 old)
    (breaks : ∀ pair ∈ old.zip new, licenseTag <:+: pair.2.leader →
      (pair.2.lineSpan.text content).BreaksWithin →
        (pair.1.lineSpan.text oldContent).BreaksWithin) :
    ∀ pair ∈ oldLines oldContent old new, Header.Admits content pair.1 pair.2 := by
  intro pair member
  obtain ⟨⟨oldHeader, header⟩, isPair, rfl⟩ := List.mem_map.mp member
  obtain ⟨isOneLine, reads⟩ :=
    searched.line_of_mem (Or.inl rfl) oldHeader (List.of_mem_zip isPair).1
  exact ⟨isOneLine, ⟨_, reads⟩, breaks _ isPair⟩

/-- The replacements that bring back old lines of notices where they differ. -/
def reverts (oldContent content : Text) (old new : List Header) : List Replacement :=
  (Header.relines (oldLines oldContent old new)).filter fun replacement =>
    replacement.newText ≠ replacement.span.text content

/-- What comes back are lines of notices, in their order. -/
theorem spans_reverts (oldContent content : Text) (old new : List Header)
    (sameLength : old.length = new.length) :
    ((reverts oldContent content old new).map Replacement.span).Sublist
      (new.map Header.lineSpan) := by
  have kept : (reverts oldContent content old new).Sublist
      (Header.relines (oldLines oldContent old new)) := List.filter_sublist
  have spans := kept.map Replacement.span
  rwa [Header.spans_relines, oldLines_fst oldContent old new sameLength] at spans

theorem reverts_cons (oldContent content : Text) (old new : Header) (oldRest rest : List Header) :
    reverts oldContent content (old :: oldRest) (new :: rest) =
      if old.lineSpan.text oldContent = new.lineSpan.text content then
        reverts oldContent content oldRest rest
      else
        ⟨new.lineSpan, old.lineSpan.text oldContent⟩ ::
          reverts oldContent content oldRest rest := by
  have first : Header.relines (oldLines oldContent (old :: oldRest) (new :: rest)) =
      ⟨new.lineSpan, old.lineSpan.text oldContent⟩ ::
        Header.relines (oldLines oldContent oldRest rest) := rfl
  rw [reverts, first]
  split
  case isTrue same => exact List.filter_cons_of_neg (by simpa using same)
  case isFalse other => exact List.filter_cons_of_pos (by simpa using other)

theorem replacements_revertWarnings (change : Change) (content oldContent : Text)
    (old new : List Header) :
    (revertWarnings change content oldContent old new).flatMap Warning.replacements =
      reverts oldContent content old new := by
  induction old generalizing new with
  | nil => rfl
  | cons oldHeader oldRest inductionHypothesis =>
    cases new with
    | nil => rfl
    | cons header rest =>
      have others := inductionHypothesis rest
      rw [reverts_cons, revertWarnings, List.zip_cons_cons, List.filterMap_cons]
      dsimp only
      by_cases same : oldHeader.lineSpan.text oldContent = header.lineSpan.text content
      · rw [revertWarning?, if_pos same, if_pos same]
        exact others
      · rw [revertWarning?, if_neg same, if_neg same, ← others]
        rfl

/-- Putting in the lines that differ is putting in all of them. -/
theorem splice_reverts {content : Text} {new : List Header}
    (searched : Header.Searched content 0 new)
    (oldContent : Text) (old : List Header) (sameLength : old.length = new.length) :
    Linter.splice content 0 (reverts oldContent content old new) =
      Linter.splice content 0 (Header.relines (oldLines oldContent old new)) := by
  refine Linter.splice_filter content 0 _ ?_ _ fun replacement _ unchanged => ?_
  · rw [Header.spans_relines, oldLines_fst oldContent old new sameLength]
    exact searched.row_lines (Nat.zero_le _)
  · simpa using unchanged

theorem fix_revertWarnings (source : Source) {new : List Header}
    (searched : Header.Searched source.content 0 new) (change : Change) (oldContent : Text)
    (old : List Header) (sameLength : old.length = new.length)
    (enabled : ∀ warning ∈ revertWarnings change source.content oldContent old new,
      source.isEnabled warning = true) :
    (⟨source, revertWarnings change source.content oldContent old new⟩ : Linter).fix =
      .ok (Linter.splice source.content 0 (reverts oldContent source.content old new)) := by
  have part := spans_reverts oldContent source.content old new sameLength
  exact Linter.fix_eq_splice source _ enabled _
    (List.Perm.of_eq (replacements_revertWarnings change source.content oldContent old new).symm)
    ((searched.row_lines (Nat.zero_le _)).sublist part) (searched.nodup_lines.sublist part)

/-- There is nothing to say on headers whose lines are the old ones. -/
theorem revertWarnings_eq_nil (change : Change) (content oldContent : Text) (old new : List Header)
    (same : new.map (fun header => header.lineSpan.text content) =
      old.map fun header => header.lineSpan.text oldContent) :
    revertWarnings change content oldContent old new = [] := by
  induction new generalizing old with
  | nil => simp [revertWarnings]
  | cons header rest inductionHypothesis =>
    cases old with
    | nil => cases same
    | cons oldHeader oldRest =>
      obtain ⟨first, others⟩ := List.cons.inj same
      rw [revertWarnings, List.zip_cons_cons, List.filterMap_cons]
      dsimp only
      rw [revertWarning?, if_pos first.symm]
      exact inductionHypothesis oldRest others

theorem historyWarnings_of_samePieces (year : Nat) (change : Change) (content oldContent : Text)
    (headers oldHeaders : List Header) (isOld : change.oldContent = some oldContent)
    (oldFinds : Header.all (Lines.ofText oldContent) = .ok oldHeaders)
    (samePieces : Header.pieces oldContent oldHeaders = Header.pieces content headers) :
    historyWarnings year change content headers =
      .ok (revertWarnings change content oldContent oldHeaders headers) := by
  rw [historyWarnings, isOld]
  simp only [oldFinds, bind, Except.bind, if_pos samePieces]
  rfl

theorem Header.length_pieces (content : Text) (headers : List Header) :
    (pieces content headers).length = headers.length + 1 := by
  have from_ (start : Nat) : (piecesFrom content start headers).length = headers.length + 1 := by
    induction headers generalizing start with
    | nil => rfl
    | cons header rest inductionHypothesis =>
      rw [piecesFrom, List.length_cons, List.length_cons, inductionHypothesis]
  exact from_ 0

theorem length_eq_of_samePieces {oldContent content : Text} {old new : List Header}
    (samePieces : Header.pieces oldContent old = Header.pieces content new) :
    old.length = new.length := by
  have measured := congrArg List.length samePieces
  rw [Header.length_pieces, Header.length_pieces] at measured
  exact Nat.succ.inj measured

/-- If headers are the lines of notices only, then changing the lines changes whole headers. -/
theorem Header.splice_relines_of_span (content : Text) (start : Nat) (pairs : List (Header × Text))
    (spans : ∀ pair ∈ pairs, pair.1.span = pair.1.lineSpan) :
    Linter.splice content start (relines pairs) =
      (List.zipWith (· ++ ·) (piecesFrom content start (pairs.map Prod.fst))
        (pairs.map Prod.snd ++ [[]])).flatten := by
  induction pairs generalizing start with
  | nil => simp [relines, Linter.splice, piecesFrom]
  | cons pair rest inductionHypothesis =>
    obtain ⟨own, others⟩ := List.forall_mem_cons.mp spans
    obtain ⟨startSame, stopSame⟩ := Span.mk.inj own
    rw [splice_relines_cons, inductionHypothesis _ others, List.map_cons, piecesFrom, List.map_cons,
      List.cons_append, List.zipWith_cons_cons, List.flatten_cons, startSame, stopSame]

/-- If headers are the lines of notices only, then the old lines make the old text again. -/
theorem splice_oldLines_eq {content oldContent : Text} {old : List Header} (new : List Header)
    (oldSearched : Header.Searched oldContent 0 old)
    (samePieces : Header.pieces oldContent old = Header.pieces content new)
    (spans : ∀ header ∈ new, header.span = header.lineSpan)
    (oldSpans : ∀ header ∈ old, header.span = header.lineSpan) :
    Linter.splice content 0 (Header.relines (oldLines oldContent old new)) = oldContent := by
  have sameLength := length_eq_of_samePieces samePieces
  have given := oldLines_fst oldContent old new sameLength
  have oldTexts : old.map (fun header => header.lineSpan.text oldContent) =
      old.map fun header => header.span.text oldContent :=
    List.map_congr_left fun header member => by rw [oldSpans header member]
  have pairSpans : ∀ pair ∈ oldLines oldContent old new, pair.1.span = pair.1.lineSpan :=
    fun pair member => spans pair.1 (given ▸ List.mem_map_of_mem member)
  calc
    _ = (List.zipWith (· ++ ·) (Header.pieces content new)
          (old.map (fun header => header.span.text oldContent) ++ [[]])).flatten := by
      rw [Header.splice_relines_of_span content 0 _ pairSpans, given,
        oldLines_snd oldContent old new sameLength, oldTexts, ← Header.pieces]
    _ = oldContent := by
      rw [← samePieces, Header.pieces, oldSearched.flatten_pieces (Or.inl rfl), List.drop_zero]

theorem check_eq_revertWarnings (policy : Policy)
    (noTags : policy.spdx = false ∧ policy.forceSpdx = false) (year : Nat) (change : Change)
    (filename content oldContent : Text) (regions : List Region) (headers oldHeaders : List Header)
    (isOld : change.oldContent = some oldContent) (changed : oldContent ≠ content)
    (finds : Header.all (Lines.ofText content) = .ok headers)
    (oldFinds : Header.all (Lines.ofText oldContent) = .ok oldHeaders)
    (samePieces : Header.pieces oldContent oldHeaders = Header.pieces content headers) :
    check policy year change ⟨filename, Lines.ofText content, regions⟩ =
      .ok (revertWarnings change content oldContent oldHeaders headers) := by
  rw [check_of_noTags policy noTags year change filename content regions headers finds, isOld,
    if_neg (fun same => changed (Option.some.inj same)),
    historyWarnings_of_samePieces year change content oldContent headers oldHeaders isOld oldFinds
      samePieces]

/-- The check of a file that differs from what it was in its headers only. -/
theorem check_of_samePieces (policy : Policy) (year : Nat) (change : Change)
    (filename content oldContent : Text) (regions : List Region) (headers oldHeaders : List Header)
    (noTags : policy.spdx = false ∧ policy.forceSpdx = false)
    (isOld : change.oldContent = some oldContent) (changed : oldContent ≠ content)
    (finds : Header.all (Lines.ofText content) = .ok headers)
    (oldFinds : Header.all (Lines.ofText oldContent) = .ok oldHeaders)
    (samePieces : Header.pieces oldContent oldHeaders = Header.pieces content headers)
    (breaks : ∀ pair ∈ oldHeaders.zip headers, licenseTag <:+: pair.2.leader →
      (pair.2.lineSpan.text content).BreaksWithin →
        (pair.1.lineSpan.text oldContent).BreaksWithin) :
    oldHeaders.length = headers.length ∧
      ∃ warnings,
        check policy year change ⟨filename, Lines.ofText content, regions⟩ = .ok warnings ∧
        ((∀ warning ∈ warnings,
            Source.isEnabled ⟨filename, Lines.ofText content, regions⟩ warning = true) →
          ∃ fixed,
            (⟨⟨filename, Lines.ofText content, regions⟩, warnings⟩ : Linter).fix = .ok fixed ∧
            fixed = Linter.splice content 0 (reverts oldContent content oldHeaders headers) ∧
            (∃ fixedHeaders, Header.all (Lines.ofText fixed) = .ok fixedHeaders ∧
              fixedHeaders.map (fun header => header.lineSpan.text fixed) =
                oldHeaders.map (fun header => header.lineSpan.text oldContent) ∧
              Header.pieces fixed fixedHeaders = Header.pieces oldContent oldHeaders) ∧
            (∀ otherRegions, check policy year change ⟨filename, Lines.ofText fixed, otherRegions⟩ =
              .ok []) ∧
            ((∀ header ∈ headers, header.span = header.lineSpan) →
              (∀ header ∈ oldHeaders, header.span = header.lineSpan) → fixed = oldContent)) := by
  have sameLength := length_eq_of_samePieces samePieces
  have searched := (Header.all_eq_ok_iff content headers).mp finds
  have oldSearched := (Header.all_eq_ok_iff oldContent oldHeaders).mp oldFinds
  have given := oldLines_fst oldContent oldHeaders headers sameLength
  have checks := check_eq_revertWarnings policy noTags year change filename content oldContent
    regions headers oldHeaders isOld changed finds oldFinds samePieces
  refine ⟨sameLength, _, checks, fun enabled =>
    ⟨_, fix_revertWarnings ⟨filename, Lines.ofText content, regions⟩ searched change oldContent
      oldHeaders sameLength enabled, rfl, ?_⟩⟩
  have spliced := splice_reverts searched oldContent oldHeaders sameLength
  obtain ⟨fixedHeaders, fixedFinds, pieces, lines⟩ := Header.all_relined content
    (oldLines oldContent oldHeaders headers) (given.symm ▸ finds)
    (admits_oldLines oldSearched breaks)
  have whole := splice_oldLines_eq headers oldSearched samePieces
  rw [given] at pieces
  rw [oldLines_snd oldContent oldHeaders headers sameLength] at lines
  have contentOf : Source.content ⟨filename, Lines.ofText content, regions⟩ = content := rfl
  rw [contentOf, spliced]
  generalize
    Linter.splice content 0 (Header.relines (oldLines oldContent oldHeaders headers)) = fixed at *
  refine ⟨⟨fixedHeaders, fixedFinds, lines, pieces.trans samePieces.symm⟩,
    fun otherRegions => ?_, whole⟩
  -- The second run looks at old headers with the same pieces as those of the fixed text.
  rw [check_of_noTags policy noTags year change filename fixed otherRegions fixedHeaders fixedFinds]
  split
  · rfl
  · rw [historyWarnings_of_samePieces year change fixed oldContent fixedHeaders oldHeaders
      isOld oldFinds (samePieces.trans pieces.symm), revertWarnings_eq_nil _ _ _ _ _ lines]

/-- An old file, and the same file with other years and without the rest of the notice's line. -/
def oldNotice : Text :=
  "# Copyright (c) 2019 NVIDIA CORPORATION & affiliates\n# SPDX-License-Identifier: MIT\nx\n"

def changedNotice : Source :=
  Source.ofText "file.txt"
    "# Copyright (c) 2019-2024 NVIDIA CORPORATION\n# SPDX-License-Identifier: MIT\nx\n" checkName

theorem check_changedNotice :
    ∃ warnings, check {} 2024 ⟨.modified, none, some oldNotice⟩ changedNotice = .ok warnings ∧
      (∀ warning ∈ warnings, changedNotice.isEnabled warning = true) ∧
      ∃ fixed, (⟨changedNotice, warnings⟩ : Linter).fix = .ok fixed ∧
        check {} 2024 ⟨.modified, none, some oldNotice⟩ (Source.ofText "file.txt" fixed checkName) =
          .ok [] := by
  have finds : Header.all changedNotice.lines =
      .ok [⟨2, ⟨14, "2019", some "2024", 42⟩, 44, none, "# ", some ⟨47, 25, "MIT"⟩, none⟩] := by
    decide +kernel
  have oldFinds : Header.all (Lines.ofText oldNotice) =
      .ok [⟨2, ⟨14, "2019", none, 37⟩, 52, none, "# ", some ⟨55, 25, "MIT"⟩, none⟩] := by
    decide +kernel
  have samePieces : Header.pieces oldNotice
        [⟨2, ⟨14, "2019", none, 37⟩, 52, none, "# ", some ⟨55, 25, "MIT"⟩, none⟩] =
      Header.pieces changedNotice.content
        [⟨2, ⟨14, "2019", some "2024", 42⟩, 44, none, "# ", some ⟨47, 25, "MIT"⟩, none⟩] := by
    decide +kernel
  have changed : oldNotice ≠ changedNotice.content := by decide +kernel
  have checks : check {} 2024 ⟨.modified, none, some oldNotice⟩ changedNotice =
      .ok [⟨⟨16, 25⟩, "copyright is not out of date and should not be updated",
        [⟨⟨2, 44⟩, "Copyright (c) 2019 NVIDIA CORPORATION & affiliates"⟩], []⟩] := by
    rw [show changedNotice = ⟨_, Lines.ofText changedNotice.content, _⟩ from rfl,
      check_eq_revertWarnings {} ⟨rfl, rfl⟩ 2024 _ _ _ _ _ _ _ rfl changed finds oldFinds
        samePieces]
    decide +kernel
  have enabled : ∀ warning ∈ [(⟨⟨16, 25⟩, "copyright is not out of date and should not be updated",
      [⟨⟨2, 44⟩, "Copyright (c) 2019 NVIDIA CORPORATION & affiliates"⟩], []⟩ : Warning)],
        changedNotice.isEnabled warning = true := by decide +kernel
  obtain ⟨_, warnings, again, fixing⟩ :=
    check_of_samePieces {} 2024 ⟨.modified, none, some oldNotice⟩ changedNotice.filename
      changedNotice.content oldNotice changedNotice.regions _ _ ⟨rfl, rfl⟩ rfl changed finds
      oldFinds samePieces (by decide +kernel)
  cases checks.symm.trans again
  obtain ⟨fixed, fixes, _, _, settled, _⟩ := fixing enabled
  exact ⟨_, checks, enabled, fixed, fixes, settled _⟩

/-! ### Notices behind the tag of a license identifier -/

/-- An old file whose second notice stands behind the tag of a license identifier. -/
def oldIdentifiers : Text :=
  "# Copyright (c) 2019 NVIDIA CORPORATION\n# SPDX-License-Identifier: MIT\n" ++
    "# SPDX-License-Identifier: Copyright (c) 2020 NVIDIA CORPORATION\n"

/-- The same file without the first identifier, and with a line separator behind the last notice. -/
def separatedIdentifier : Source :=
  Source.ofText "file.txt"
    ("# Copyright (c) 2019 NVIDIA CORPORATION\n" ++
      "# SPDX-License-Identifier: Copyright (c) 2021 NVIDIA CORPORATION\u2028x\n") checkName

/-- The file with the old notices: the last one reads as the identifier of the header above. -/
def joinedIdentifier : Text :=
  "# Copyright (c) 2019 NVIDIA CORPORATION\n" ++
    "# SPDX-License-Identifier: Copyright (c) 2020 NVIDIA CORPORATION\n"

/-- The condition on line terminators is needed: without it there may be more to say on the fixed
file. -/
theorem check_joinedIdentifier :
    ∃ oldHeaders headers warnings, Header.all (Lines.ofText oldIdentifiers) = .ok oldHeaders ∧
      Header.all separatedIdentifier.lines = .ok headers ∧
      Header.pieces oldIdentifiers oldHeaders = Header.pieces separatedIdentifier.content headers ∧
      check {} 2024 ⟨.modified, none, some oldIdentifiers⟩ separatedIdentifier = .ok warnings ∧
      (∀ warning ∈ warnings, separatedIdentifier.isEnabled warning = true) ∧
      (⟨separatedIdentifier, warnings⟩ : Linter).fix = .ok joinedIdentifier ∧
      check {} 2024 ⟨.modified, none, some oldIdentifiers⟩
        (Source.ofText "file.txt" joinedIdentifier checkName) ≠ .ok [] := by
  have inside : 106 ≤ separatedIdentifier.content.length := by decide +kernel
  have enabled : ∀ warning ∈ [(⟨⟨81, 85⟩, "copyright is not out of date and should not be updated",
      [⟨⟨67, 106⟩, "Copyright (c) 2020 NVIDIA CORPORATION"⟩], []⟩ : Warning)],
        separatedIdentifier.isEnabled warning = true := by decide +kernel
  refine ⟨[⟨2, ⟨14, "2019", none, 37⟩, 39, none, "# ", some ⟨42, 25, "MIT"⟩, none⟩,
      ⟨98, ⟨14, "2020", none, 37⟩, 135, none, "# SPDX-License-Identifier: ", none, none⟩],
    [⟨2, ⟨14, "2019", none, 37⟩, 39, none, "# ", none, none⟩,
      ⟨67, ⟨14, "2021", none, 37⟩, 106, none, "# SPDX-License-Identifier: ", none, none⟩], _,
    by decide +kernel, by decide +kernel, by decide +kernel, ?_, enabled, ?_, by decide +kernel⟩
  · decide +kernel
  · rw [Linter.fix_eq_splice _ _ enabled [⟨⟨67, 106⟩, "Copyright (c) 2020 NVIDIA CORPORATION"⟩]
      (List.Perm.of_eq rfl) ⟨by decide, by decide, inside⟩ (List.nodup_singleton _)]
    decide +kernel

end SourceLint.Copyright
