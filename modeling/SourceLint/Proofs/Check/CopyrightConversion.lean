/-
This file proves that to write the first header of a file with tags is not to edit the file. The
search finds a header in the place of the first one, with the same line behind the tag, and all the
others with the lines that they had; and if no long text is left below the identifier, then what is
not in a header is what it was. So the years need not change, since nothing but headers did.
-/
import SourceLint.Proofs.Check.CopyrightTags

namespace SourceLint.Copyright

/-! ### The headers of a converted file -/

/-- Below the line on which a header ends there stands the long text of a license, behind the leader
of the lines that follow a header written with tags. -/
def LicenseBehind (content : Text) (header : Header) : Prop :=
  ShowsLicense (continuationLeader (continuationLeader header.leader))
    ((Lines.ofText (content.drop header.stop)).all.tail.map Line.text)

instance (content : Text) (header : Header) : Decidable (LicenseBehind content header) :=
  inferInstanceAs (Decidable (ShowsLicense _ _))

/-- What the search finds in a text whose first header was written with tags: the tags, the line and
the surroundings that the header had, and the other headers. -/
structure Converted (content : Text) (first : Header) (others : List Header)
    (identifier fixed : Text) (header : Header) (rest : List Header) : Prop where
  searched : Header.Searched fixed 0 (header :: rest)
  tag : header.tagStart.isSome = true
  license : ∃ license, header.license = some license ∧ license.identifier = identifier
  longForm : header.longForm.isSome = true ↔
    identifier = Text.ofString "Apache-2.0" ∧ LicenseBehind content first
  line : header.lineSpan.text fixed = first.lineSpan.text content
  before : fixed.slice 0 header.start = content.slice 0 first.start
  pieces : Header.piecesFrom fixed header.headStop rest =
    Header.piecesFrom content first.stop others
  lines : rest.map (fun header => header.lineSpan.text fixed) =
    others.map fun header => header.lineSpan.text content

/-- To put the lines of headers in their own places changes nothing. -/
theorem splice_ownLines {content : Text} {start : Nat} {headers : List Header}
    (searched : Header.Searched content start headers) (inside : start ≤ content.length) :
    Linter.splice content start (Header.relines (ownLines content headers)) =
      content.drop start := by
  have row : Span.Row 0 content.length start
      ((Header.relines (ownLines content headers)).map Replacement.span) := by
    rw [Header.spans_relines, ownLines_fst]
    exact searched.row_lines inside
  have same : ∀ replacement ∈ Header.relines (ownLines content headers), false = false →
      replacement.newText = replacement.span.text content := by
    rw [Header.relines, List.forall_mem_map, ownLines, List.forall_mem_map]
    exact fun header _ _ => rfl
  rw [← Linter.splice_filter content start _ row (fun _ => false) same,
    List.filter_eq_nil_iff.mpr fun _ _ => Bool.false_ne_true]
  rfl

/-- The first header written with tags, without the long text that it had. -/
theorem exists_converted {content : Text} {first : Header} {others : List Header}
    (searched : Header.Searched content 0 (first :: others)) {identifier : Text}
    (isIdentifier : IsIdentifier identifier)
    (notReserved : identifier ∉ LicenseEntry.reservedWords) :
    ∃ header rest, Converted content first others identifier
      (Linter.splice content 0 (ordered identifier first [] [])) header rest := by
  obtain ⟨⟨above, before, line, below, isFound⟩, _, _⟩ := searched.exists_found (Or.inl rfl)
  obtain ⟨stopInText, behind, ends⟩ := others_searched searched
  have changes : OnLines content first [] [] := onLines_later searched stopInText (by simp)
  obtain ⟨count, gap, newline, whole⟩ := splice_ordered isFound changes identifier
  rw [show Linter.splice content first.stop [] = content.drop first.stop from rfl] at whole
  generalize Linter.splice content 0 (ordered identifier first [] []) = fixed at whole ⊢
  obtain ⟨header, headerFound, _⟩ := Header.exists_found_of_tags whole isFound.around.fills
    isFound.isOneLine_leader isFound.free_leader changes.isOneLine changes.reads isIdentifier
    notReserved ends
  have isLeader := Header.leaderOf_append first.leader count
  obtain ⟨license, ⟨head, headWhole, headStop⟩, longForm⟩ :=
    headerFound.reads_beforeIdentifier isLeader isFound.isOneLine_leader isIdentifier ends
  -- The other headers stay what they are, since only what stands above them has changed.
  have given := ownLines_fst content others
  have stopPositive := (Header.stop_bounds content 0 first isFound.next?_eq).1
  obtain ⟨rest, restSearched, pieces, lines⟩ := Header.Searched.relined (ownLines content others)
    (given.symm ▸ behind) (Or.inr ends)
    (admits_ownLines (behind.line_of_mem (Or.inr ends))) head
    (fun atZero => absurd atZero (Nat.ne_of_gt stopPositive)) fixed
    (by rw [splice_ownLines behind stopInText]; exact headWhole)
  rw [headStop] at restSearched pieces
  have headEnds : Text.EndsLine (fixed.drop header.headStop) := by
    rw [← headStop, headWhole, List.drop_left]
    exact ends
  refine ⟨header, rest, {
    searched := ?_, tag := ?_, license := license, longForm := longForm, line := ?_, before := ?_,
    pieces := given ▸ pieces, lines := ?_ }⟩
  · exact .found 0 header rest headerFound.next?_eq
      (Header.stop_bounds fixed 0 header headerFound.next?_eq).1
      (headerFound.searched_stop headEnds restSearched)
  · obtain ⟨_, _, made⟩ := headerFound.made
    rw [made, Header.make, Header.tagLength?_append]
    rfl
  · rw [headerFound.lineText, firstLine_nil]
  · rw [headerFound.slice_leader, isFound.slice_leader, isLeader, isFound.leader_eq]
  · rw [lines, ownLines, List.map_map]
    rfl

/-- Without a long text below the identifier the pieces are what they were. -/
theorem Converted.pieces_eq {content identifier fixed : Text} {first header : Header}
    {others rest : List Header}
    (converted : Converted content first others identifier fixed header rest)
    (noLongForm : header.longForm = none) :
    Header.pieces fixed (header :: rest) = Header.pieces content (first :: others) := by
  have stop : header.stop = header.headStop := by rw [Header.stop, noLongForm]
  rw [Header.pieces, Header.pieces, Header.piecesFrom, Header.piecesFrom, converted.before, stop,
    converted.pieces]

/-! ### The check -/

/-- The check of an unchanged file of which tags are demanded looks at the tags only, and its fix
writes the first header with them. -/
theorem fix_of_unchanged (policy : Policy) (force : policy.forceSpdx = true) (year : Nat)
    (change : Change) (filename content : Text) (regions : List Region) (first : Header)
    (others : List Header) (finds : Header.all (Lines.ofText content) = .ok (first :: others))
    (unchanged : change.oldContent = some content) :
    check policy year change ⟨filename, Lines.ofText content, regions⟩ =
        .ok (spdxWarnings policy.identifier first) ∧
      ((∀ warning ∈ spdxWarnings policy.identifier first,
          Source.isEnabled ⟨filename, Lines.ofText content, regions⟩ warning = true) →
        (⟨⟨filename, Lines.ofText content, regions⟩,
            spdxWarnings policy.identifier first⟩ : Linter).fix =
          .ok (Linter.splice content 0 (ordered policy.identifier first [] []))) := by
  have searched := (Header.all_eq_ok_iff _ _).mp finds
  obtain ⟨⟨above, before, line, below, isFound⟩, _, _⟩ := searched.exists_found (Or.inl rfl)
  have changes : OnLines content first [] [] :=
    onLines_later searched (others_searched searched).1 (by simp)
  refine ⟨?_, fun enabled => ?_⟩
  · rw [check_of_demands policy year change filename content regions first others finds
      (Or.inl force), if_pos unchanged]
    rfl
  · exact Linter.fix_eq_splice ⟨filename, Lines.ofText content, regions⟩ _ enabled
      (ordered policy.identifier first [] [])
      (perm_ordered policy.identifier first [] [] [] rfl)
      (row_ordered isFound changes policy.identifier)
      (nodup_ordered isFound changes policy.identifier)

/-- To write the first header of an unchanged file with tags is not to edit the file: unless another
long text is left below the identifier, what is not in a header is what it was, and a check against
the old content, without tags, has nothing to say on the years. -/
theorem fix_of_unchanged_samePieces (policy : Policy) (force : policy.forceSpdx = true)
    (year : Nat) (change : Change) (filename content : Text) (regions : List Region)
    (first : Header) (others : List Header)
    (finds : Header.all (Lines.ofText content) = .ok (first :: others))
    (unchanged : change.oldContent = some content)
    (isIdentifier : IsIdentifier policy.identifier)
    (notReserved : policy.identifier ∉ LicenseEntry.reservedWords) :
    ∃ warnings, check policy year change ⟨filename, Lines.ofText content, regions⟩ = .ok warnings ∧
      ((∀ warning ∈ warnings,
          Source.isEnabled ⟨filename, Lines.ofText content, regions⟩ warning = true) →
        ∃ fixed, (⟨⟨filename, Lines.ofText content, regions⟩, warnings⟩ : Linter).fix = .ok fixed ∧
          ∃ header rest, Header.all (Lines.ofText fixed) = .ok (header :: rest) ∧
            (header.longForm = none →
              Header.pieces fixed (header :: rest) = Header.pieces content (first :: others) ∧
              ∀ (plain : Policy), plain.spdx = false ∧ plain.forceSpdx = false →
                ∀ (laterYear : Nat) (later : Change), later.oldContent = some content →
                  ∀ (laterName : Text) (laterRegions : List Region),
                    check plain laterYear later ⟨laterName, Lines.ofText fixed, laterRegions⟩ =
                      .ok [])) := by
  have searched := (Header.all_eq_ok_iff _ _).mp finds
  obtain ⟨checks, fixing⟩ := fix_of_unchanged policy force year change filename content regions
    first others finds unchanged
  refine ⟨_, checks, fun enabled => ⟨_, fixing enabled, ?_⟩⟩
  obtain ⟨header, rest, converted⟩ := exists_converted searched isIdentifier notReserved
  generalize Linter.splice content 0 (ordered policy.identifier first [] []) = fixed at converted ⊢
  have fixedFinds := (Header.all_eq_ok_iff _ _).mpr converted.searched
  refine ⟨header, rest, fixedFinds, fun noLongForm => ⟨converted.pieces_eq noLongForm, ?_⟩⟩
  intro plain noTags laterYear later isOld laterName laterRegions
  rw [check_of_noTags plain noTags laterYear later laterName fixed laterRegions _ fixedFinds]
  split
  · rfl
  · rw [historyWarnings_of_samePieces laterYear later fixed content _ _ isOld finds
      (converted.pieces_eq noLongForm).symm, revertWarnings_eq_nil]
    rw [List.map_cons, List.map_cons, converted.line, converted.lines]

/-- The long text of a license behind a comment leader. -/
def longText (leader : Text) (newline : Newline) : Text :=
  LicenseEntry.apache.flatMap fun line => leader ++ line ++ newline.text

/-- A file with the long text of a license below its notice, and with a later notice. -/
def longNotice : Text :=
  "# Copyright (c) 2022, NVIDIA CORPORATION\r\n#\r\n" ++ longText "# " .crlf ++
    "\r\n# Copyright 2021 NVIDIA Corporation & affiliates\r\n"

/-- The first header of the file. -/
def longHeader : Header := ⟨2, ⟨14, "2022", none, 38⟩, 40, none, "# ", none, some ⟨43, 600⟩⟩

theorem all_longNotice : Header.all (Lines.ofText longNotice) =
    .ok [longHeader, ⟨606, ⟨10, "2021", none, 33⟩, 652, none, "# ", none, none⟩] := by
  decide +kernel

theorem isEnabled_longNotice : ∀ warning ∈ spdxWarnings defaultLicense longHeader,
    (Source.ofText "file.txt" longNotice checkName).isEnabled warning = true := by
  decide +kernel

theorem fix_longNotice :
    ∃ warnings fixed,
      check { forceSpdx := true } 2024 ⟨.modified, none, some longNotice⟩
          (Source.ofText "file.txt" longNotice checkName) = .ok warnings ∧
        (∀ warning ∈ warnings,
          (Source.ofText "file.txt" longNotice checkName).isEnabled warning = true) ∧
        (⟨Source.ofText "file.txt" longNotice checkName, warnings⟩ : Linter).fix = .ok fixed ∧
        fixed ≠ longNotice ∧
        check {} 2024 ⟨.modified, none, some longNotice⟩
          (Source.ofText "file.txt" fixed checkName) = .ok [] := by
  have fixedFinds : Header.all (Lines.ofText
      (Linter.splice longNotice 0 (ordered defaultLicense longHeader [] []))) =
        .ok [⟨26, ⟨14, "2022", none, 38⟩, 64, some 2, "# ", some ⟨67, 25, "Apache-2.0"⟩, none⟩,
          ⟨108, ⟨10, "2021", none, 33⟩, 154, none, "# ", none, none⟩] := by decide +kernel
  have changed : Linter.splice longNotice 0 (ordered defaultLicense longHeader [] []) ≠
      longNotice := by decide +kernel
  obtain ⟨checks, fixing⟩ := fix_of_unchanged { forceSpdx := true } rfl 2024
    ⟨.modified, none, some longNotice⟩ "file.txt" longNotice
    (Region.ofLines (Lines.ofText longNotice) checkName) longHeader _ all_longNotice rfl
  obtain ⟨warnings, again, fixes⟩ := fix_of_unchanged_samePieces { forceSpdx := true } rfl 2024
    ⟨.modified, none, some longNotice⟩ "file.txt" longNotice
    (Region.ofLines (Lines.ofText longNotice) checkName) longHeader _ all_longNotice rfl
    (by decide +kernel) (by decide)
  cases checks.symm.trans again
  obtain ⟨_, isFixed, header, rest, headers, same⟩ := fixes isEnabled_longNotice
  cases (fixing isEnabled_longNotice).symm.trans isFixed
  cases fixedFinds.symm.trans headers
  exact ⟨_, _, checks, isEnabled_longNotice, isFixed, changed,
    (same rfl).2 {} ⟨rfl, rfl⟩ 2024 ⟨.modified, none, some longNotice⟩ rfl _ _⟩

/-- A word that the table of license texts keeps for itself is no identifier to write headers with:
the check of the fixed file against the old one stops at the header that the fix writes. -/
theorem check_stops_at_reserved :
    IsIdentifier "constructor" ∧
      ∃ warnings fixed, check { forceSpdx := true, identifier := "constructor" } 2024
          ⟨.modified, none, some current.content⟩ current = .ok warnings ∧
        (∀ warning ∈ warnings, current.isEnabled warning = true) ∧
        (⟨current, warnings⟩ : Linter).fix = .ok fixed ∧
        check {} 2024 ⟨.modified, none, some current.content⟩
          (Source.ofText "file.txt" fixed checkName) =
            .error (.reservedIdentifier "constructor") := by
  have finds : Header.all (Lines.ofText current.content) =
      .ok [⟨2, ⟨14, "2024", none, 37⟩, 39, none, "# ", none, none⟩] := by decide +kernel
  obtain ⟨checks, fixing⟩ := fix_of_unchanged { forceSpdx := true, identifier := "constructor" } rfl
    2024 ⟨.modified, none, some current.content⟩ current.filename current.content current.regions _
    _ finds rfl
  have enabled : ∀ warning ∈ spdxWarnings "constructor"
      ⟨2, ⟨14, "2024", none, 37⟩, 39, none, "# ", none, none⟩,
      current.isEnabled warning = true := by decide +kernel
  exact ⟨by decide +kernel, _, _, checks, enabled, fixing enabled, by decide +kernel⟩

end SourceLint.Copyright
