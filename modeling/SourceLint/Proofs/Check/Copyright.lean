/-
This file proves that the warnings on copyright headers are sound, whatever the file was before and
whatever is demanded. What concerns years lies in the lines of notices, at most one replacement a
line; what concerns tags belongs to the first header: something before its notice, something at or
after the end of the notice's line, and something after the license identifier, in this order.
-/
import SourceLint.Check.Copyright
import SourceLint.Proofs.Copyright.Header

namespace SourceLint.Copyright

/-! ### Places of a header -/

namespace Header.In

variable {content : Text} {header : Header} (inText : header.In content)

include inText

/-- A span on the line of a notice is placed. -/
theorem placed_on_line (span : Span) (after : header.start ≤ span.start)
    (proper : span.start ≤ span.stop) (before : span.stop ≤ header.lineStop) :
    span.PlacedIn content := by
  obtain ⟨line, isLine, start, _, _, stop⟩ := inText.line
  exact .of_line line isLine (Nat.le_trans start after) proper (stop ▸ before)

theorem start_le_noticeStart : header.start ≤ header.noticeStart := by
  obtain ⟨_, _, _, start, _⟩ := inText.line
  exact start

/-- The years lie in the notice. -/
theorem years_le_notice : header.yearsSpan.stop ≤ header.noticeSpan.stop := by
  obtain ⟨lead, years, name, rest, parts⟩ := Notice.exists_parts_of_read? _ _ inText.reads
  have leadLength := parts.lead_length
  have yearsLength := parts.years_length
  have length := parts.length_eq
  dsimp only [yearsSpan, yearsStart, noticeSpan]
  omega

theorem placed_lineSpan : header.lineSpan.PlacedIn content := by
  have bound := inText.noticeStart_le_lineStop
  exact inText.placed_on_line _ inText.start_le_noticeStart
    (by dsimp only [lineSpan]; omega) (Nat.le_refl _)

theorem placed_noticeSpan : header.noticeSpan.PlacedIn content :=
  inText.placed_on_line _ inText.start_le_noticeStart (Nat.le_add_right _ _)
    inText.noticeStart_le_lineStop

theorem placed_yearsSpan : header.yearsSpan.PlacedIn content := by
  have start := inText.start_le_noticeStart
  refine inText.placed_on_line _ ?_ (Nat.le_add_right _ _)
    (Nat.le_trans inText.years_le_notice inText.noticeStart_le_lineStop)
  dsimp only [yearsSpan, yearsStart]
  omega

end Header.In

/-! ### Years -/

/-- Replacements on the lines of notices, in their order. -/
structure OnNotices (headers : List Header) (replacements : List Replacement) : Prop where
  within : ∀ replacement ∈ replacements, ∃ header ∈ headers,
    header.noticeStart ≤ replacement.span.start ∧
      replacement.span.start ≤ replacement.span.stop ∧ replacement.span.stop ≤ header.lineStop
  apart : replacements.Pairwise fun earlier later => earlier.span.stop ≤ later.span.start

theorem placed_of_mem_historyNotes (change : Change) (content : Text) (note : Note)
    (member : note ∈ historyNotes change content) : note.span.PlacedIn content := by
  have wholeFile : Span.PlacedIn ⟨0, content.length⟩ content :=
    ⟨Nat.zero_le _, Nat.le_refl _, content.not_splitsBreak_zero⟩
  rw [historyNotes] at member
  split at member
  · rcases List.mem_cons.mp member with rfl | member
    · exact wholeFile
    · cases List.mem_singleton.mp member
      exact wholeFile
  · exact absurd member List.not_mem_nil

theorem revertWarning?_eq_some (change : Change) (content oldContent : Text) (old new : Header)
    (warning : Warning) (warns : revertWarning? change content oldContent old new = some warning) :
    (warning.span = new.lineSpan ∨ warning.span = new.yearsSpan) ∧
      warning.notes = historyNotes change content ∧
      warning.replacements = [⟨new.lineSpan, old.lineSpan.text oldContent⟩] := by
  rw [revertWarning?] at warns
  split at warns
  · cases warns
  · cases warns
    refine ⟨?_, rfl, rfl⟩
    dsimp only
    split
    · exact Or.inl rfl
    · exact Or.inr rfl

theorem placed_of_mem_revertWarnings (change : Change) (content oldContent : Text)
    (old new : List Header) (row : Header.Row content new) (warning : Warning)
    (member : warning ∈ revertWarnings change content oldContent old new) :
    warning.PlacedIn content := by
  obtain ⟨⟨oldHeader, header⟩, isPair, warns⟩ := List.mem_filterMap.mp member
  obtain ⟨span, notes, replacements⟩ := revertWarning?_eq_some _ _ _ _ _ _ warns
  have inText := row.1 header (List.of_mem_zip isPair).2
  refine .of_parts ?_ ?_ ?_
  · rcases span with isLine | isYears
    · exact isLine ▸ inText.placed_lineSpan
    · exact isYears ▸ inText.placed_yearsSpan
  · rw [notes]
    exact placed_of_mem_historyNotes change content
  · rw [replacements]
    exact List.forall_mem_singleton.mpr inText.placed_lineSpan

/-- What comes back are lines of notices. -/
theorem spans_revertWarnings (change : Change) (content oldContent : Text)
    (old new : List Header) :
    (((revertWarnings change content oldContent old new).flatMap Warning.replacements).map
      Replacement.span).Sublist (new.map Header.lineSpan) := by
  induction new generalizing old with
  | nil => simp [revertWarnings]
  | cons header rest inductionHypothesis =>
    cases old with
    | nil => simp [revertWarnings]
    | cons oldHeader oldRest =>
      rw [revertWarnings, List.zip_cons_cons, List.filterMap_cons]
      dsimp only
      cases warns : revertWarning? change content oldContent oldHeader header with
      | none => exact (inductionHypothesis oldRest).cons _
      | some warning =>
        obtain ⟨_, _, replacements⟩ := revertWarning?_eq_some _ _ _ _ _ _ warns
        rw [List.flatMap_cons, replacements]
        exact (inductionHypothesis oldRest).cons_cons _

theorem onNotices_revertWarnings (change : Change) (content oldContent : Text)
    (old new : List Header) (row : Header.Row content new) :
    OnNotices new
      ((revertWarnings change content oldContent old new).flatMap Warning.replacements) := by
  have spans := spans_revertWarnings change content oldContent old new
  constructor
  · intro replacement member
    obtain ⟨header, isHeader, same⟩ :=
      List.mem_map.mp (spans.subset (List.mem_map.mpr ⟨replacement, member, rfl⟩))
    have bound := (row.1 header isHeader).noticeStart_le_lineStop
    rw [← same]
    exact ⟨header, isHeader, Nat.le_refl _, by dsimp only [Header.lineSpan]; omega, Nat.le_refl _⟩
  · have lines : (new.map Header.lineSpan).Pairwise fun earlier later =>
        earlier.stop ≤ later.start := by
      refine List.pairwise_map.mpr (row.2.imp_of_mem fun {earlier later} isEarlier _ apart => ?_)
      have inText := row.1 earlier isEarlier
      exact Nat.le_trans inText.headStop_in_line.1 (Nat.le_trans inText.headStop_le_stop apart)
    exact List.pairwise_map.mp (lines.sublist spans)

theorem newestOf_mem (best : Header) (headers : List Header) :
    newestOf best headers ∈ best :: headers := by
  induction headers generalizing best with
  | nil => exact List.mem_cons_self
  | cons header rest inductionHypothesis =>
    rw [newestOf]
    rcases List.mem_cons.mp (inductionHypothesis _) with same | later
    · rw [same]
      split
      · exact List.mem_cons_of_mem _ List.mem_cons_self
      · exact List.mem_cons_self
    · exact List.mem_cons_of_mem _ (List.mem_cons_of_mem _ later)

/-- The newest notice is brought up to date, or the lack of notices is shown. -/
theorem yearWarnings_cases (year : Nat) (headers : List Header) :
    yearWarnings year headers = [] ∨
      (∃ message, yearWarnings year headers = [⟨.point 0, message, [], []⟩]) ∨
      ∃ header ∈ headers, ∃ message newText, yearWarnings year headers =
        [⟨header.yearsSpan, message, [⟨header.noticeSpan, newText⟩], []⟩] := by
  cases headers with
  | nil => exact Or.inr (Or.inl ⟨_, rfl⟩)
  | cons header rest =>
    rw [yearWarnings]
    dsimp only
    split
    · exact Or.inl rfl
    · exact Or.inr (Or.inr ⟨_, newestOf_mem header rest, _, _, rfl⟩)

theorem placed_of_mem_yearWarnings (content : Text) (year : Nat) (headers : List Header)
    (row : Header.Row content headers) (warning : Warning)
    (member : warning ∈ yearWarnings year headers) : warning.PlacedIn content := by
  rcases yearWarnings_cases year headers with
    none | ⟨message, lacks⟩ | ⟨header, isHeader, message, newText, old⟩
  · exact absurd (none ▸ member) List.not_mem_nil
  · cases List.mem_singleton.mp (lacks ▸ member)
    exact .of_parts (.point_zero content) (by simp) (by simp)
  · cases List.mem_singleton.mp (old ▸ member)
    have inText := row.1 header isHeader
    exact .of_parts inText.placed_yearsSpan (by simp)
      (List.forall_mem_singleton.mpr inText.placed_noticeSpan)

theorem onNotices_yearWarnings (content : Text) (year : Nat) (headers : List Header)
    (row : Header.Row content headers) :
    OnNotices headers ((yearWarnings year headers).flatMap Warning.replacements) := by
  rcases yearWarnings_cases year headers with
    none | ⟨message, lacks⟩ | ⟨header, isHeader, message, newText, old⟩
  · rw [none]
    exact ⟨by simp, .nil⟩
  · rw [lacks]
    exact ⟨by simp, .nil⟩
  · rw [old]
    refine ⟨List.forall_mem_singleton.mpr ⟨header, isHeader, Nat.le_refl _, ?_, ?_⟩,
      List.pairwise_singleton _ _⟩
    · exact Nat.le_add_right _ _
    · exact (row.1 header isHeader).noticeStart_le_lineStop

/-! ### Tags -/

/-- The spans of what some warnings replace. -/
def replacedSpans (warnings : List Warning) : List Span :=
  (warnings.flatMap Warning.replacements).map Replacement.span

theorem replacedSpans_append (left right : List Warning) :
    replacedSpans (left ++ right) = replacedSpans left ++ replacedSpans right := by
  rw [replacedSpans, List.flatMap_append, List.map_append]
  rfl

section Tags

variable {content : Text} {header : Header} (inText : header.In content)

include inText

/-- A tag goes before the notice. -/
theorem tagWarnings_sound : (∀ warning ∈ tagWarnings header, warning.PlacedIn content) ∧
    Span.Row 0 header.noticeStart header.noticeStart (replacedSpans (tagWarnings header)) := by
  rw [tagWarnings]
  split
  · exact ⟨by simp, Nat.le_refl _⟩
  · have point := inText.placed_on_line (.point header.noticeStart) inText.start_le_noticeStart
      (Nat.le_refl _) (Nat.le_trans (Nat.le_add_right _ _) inText.noticeStart_le_lineStop)
    refine ⟨List.forall_mem_singleton.mpr (.of_parts inText.placed_lineSpan (by simp) ?_), ?_⟩
    · exact List.forall_mem_singleton.mpr point
    · exact ⟨Nat.le_refl _, Nat.le_refl _, Nat.le_refl _⟩

/-- A license identifier is added at the end of the notice's line, or changed below it. -/
theorem licenseWarnings_sound (identifier : Text) :
    (∀ warning ∈ licenseWarnings identifier header, warning.PlacedIn content) ∧
      Span.Row 0 header.headStop header.lineStop
        (replacedSpans (licenseWarnings identifier header)) := by
  have head := inText.headStop_in_line.1
  have start := inText.start_le_noticeStart
  have bound := inText.noticeStart_le_lineStop
  rw [licenseWarnings]
  split
  case h_1 =>
    have span := inText.placed_on_line ⟨header.start, header.lineStop⟩ (Nat.le_refl _)
      (by dsimp only; omega) (Nat.le_refl _)
    have point := inText.placed_on_line (.point header.lineStop) (by dsimp only [Span.point]; omega)
      (Nat.le_refl _) (Nat.le_refl _)
    exact ⟨List.forall_mem_singleton.mpr
        (.of_parts span (by simp) (List.forall_mem_singleton.mpr point)),
      Nat.le_refl _, Nat.le_refl _, head⟩
  case h_2 license isLicense =>
    split
    · exact ⟨by simp, head⟩
    · obtain ⟨line, isLine, beyond, after, before⟩ := inText.license license isLicense
      have span : Span.PlacedIn ⟨license.start, license.textSpan.stop⟩ content :=
        .of_line line isLine after (by dsimp only [LicenseLine.textSpan]; omega) before
      have text : license.textSpan.PlacedIn content :=
        .of_line line isLine (by dsimp only [LicenseLine.textSpan]; omega) (Nat.le_add_right _ _)
          before
      have headStop : header.headStop = license.textSpan.stop := by
        rw [Header.headStop, isLicense]
      refine ⟨List.forall_mem_singleton.mpr
        (.of_parts span (by simp) (List.forall_mem_singleton.mpr text)), ?_, text.1,
        Nat.le_of_eq headStop.symm⟩
      dsimp only [LicenseLine.textSpan]
      omega

/-- The long text of the license is taken out after the identifier. -/
theorem longFormWarnings_sound :
    (∀ warning ∈ longFormWarnings header, warning.PlacedIn content) ∧
      Span.Row 0 header.stop header.headStop (replacedSpans (longFormWarnings header)) := by
  rw [longFormWarnings]
  split
  case h_1 => exact ⟨by simp, inText.headStop_le_stop⟩
  case h_2 longForm isLongForm =>
    obtain ⟨placed, beyond⟩ := inText.longForm longForm isLongForm
    obtain ⟨line, isLine, after, before⟩ := inText.headStop_in_line.2
    have removed : Span.PlacedIn ⟨header.headStop, longForm.stop⟩ content :=
      ⟨Nat.le_trans (Nat.le_of_lt beyond) placed.1, placed.2.1,
        Lines.not_splitsBreak_of_mem content line isLine _ after before⟩
    have stop : header.stop = longForm.stop := by
      rw [Header.stop, isLongForm]
    exact ⟨List.forall_mem_singleton.mpr
        (.of_parts placed (by simp) (List.forall_mem_singleton.mpr removed)),
      Nat.le_refl _, removed.1, Nat.le_of_eq stop.symm⟩

/-- What is demanded of tags is replaced in a row: something before the notice, and the rest from
the end of its line on. -/
theorem spdxWarnings_sound (identifier : Text) :
    (∀ warning ∈ spdxWarnings identifier header, warning.PlacedIn content) ∧
      Span.Row 0 header.stop header.noticeStart (replacedSpans (spdxWarnings identifier header)) ∧
      ∀ span ∈ replacedSpans (spdxWarnings identifier header),
        span.stop ≤ header.noticeStart ∨ header.lineStop ≤ span.start := by
  obtain ⟨tagPlaced, tagRow⟩ := tagWarnings_sound inText
  obtain ⟨licensePlaced, licenseRow⟩ := licenseWarnings_sound inText identifier
  obtain ⟨longFormPlaced, longFormRow⟩ := longFormWarnings_sound inText
  have belowRow := licenseRow.append longFormRow
  have bound := inText.noticeStart_le_lineStop
  have spans : replacedSpans (spdxWarnings identifier header) =
      replacedSpans (tagWarnings header) ++ (replacedSpans (licenseWarnings identifier header) ++
        replacedSpans (longFormWarnings header)) := by
    rw [spdxWarnings, replacedSpans_append, replacedSpans_append, List.append_assoc]
  rw [spans]
  refine ⟨?_, tagRow.append (belowRow.of_le (by omega)), ?_⟩
  · exact List.forall_mem_append.mpr
      ⟨List.forall_mem_append.mpr ⟨tagPlaced, licensePlaced⟩, longFormPlaced⟩
  · exact List.forall_mem_append.mpr ⟨fun span isTag => Or.inl (tagRow.stop_le isTag).2,
      fun span isBelow => Or.inr (belowRow.start_le isBelow)⟩

end Tags

/-! ### The check -/

/-- Warnings that concern the notices of some headers only. -/
structure NoticesOnly (content : Text) (headers : List Header) (warnings : List Warning) :
    Prop where
  placed : ∀ warning ∈ warnings, warning.PlacedIn content
  onNotices : OnNotices headers (warnings.flatMap Warning.replacements)

theorem noticesOnly_nil (content : Text) (headers : List Header) :
    NoticesOnly content headers [] := ⟨by simp, by simp, .nil⟩

theorem noticesOnly_historyWarnings (year : Nat) (change : Change) (content : Text)
    (headers : List Header) (row : Header.Row content headers) (warnings : List Warning)
    (checks : historyWarnings year change content headers = .ok warnings) :
    NoticesOnly content headers warnings := by
  have years : NoticesOnly content headers (yearWarnings year headers) :=
    ⟨placed_of_mem_yearWarnings content year headers row,
      onNotices_yearWarnings content year headers row⟩
  rw [historyWarnings] at checks
  split at checks
  · cases checks
    exact years
  case h_2 oldContent _ =>
    obtain ⟨oldHeaders, _, checks⟩ := exists_of_bind_eq_ok _ _ _ checks
    split at checks
    · cases checks
      exact ⟨placed_of_mem_revertWarnings change content oldContent oldHeaders headers row,
        onNotices_revertWarnings change content oldContent oldHeaders headers row⟩
    · cases checks
      exact years

/-- What concerns notices does not overlap what is demanded of the tags of the first header. -/
theorem sound_append (content identifier : Text) (header : Header) (rest : List Header)
    (row : Header.Row content (header :: rest)) (years : List Warning)
    (only : NoticesOnly content (header :: rest) years) :
    Sound content (years ++ spdxWarnings identifier header) := by
  obtain ⟨inText, restIn⟩ := List.forall_mem_cons.mp row.1
  obtain ⟨beyond, _⟩ := List.pairwise_cons.mp row.2
  obtain ⟨tagsPlaced, tagsRow, tagsApart⟩ := spdxWarnings_sound inText identifier
  refine ⟨List.forall_mem_append.mpr ⟨only.placed, tagsPlaced⟩, Replacement.apart_of_pairwise _ ?_⟩
  rw [List.flatMap_append]
  refine List.pairwise_append.mpr ⟨?_, ?_, ?_⟩
  · exact only.onNotices.apart.imp fun before overlap => absurd overlap.2 (Nat.not_lt_of_le before)
  · exact (List.pairwise_map.mp tagsRow.pairwise).imp fun before overlap =>
      absurd overlap.2 (Nat.not_lt_of_le before)
  · rintro replacement isYear tag isTag ⟨forward, backward⟩
    obtain ⟨owner, isOwner, after, _, before⟩ := only.onNotices.within replacement isYear
    have isSpan : tag.span ∈ replacedSpans (spdxWarnings identifier header) :=
      List.mem_map.mpr ⟨tag, isTag, rfl⟩
    have inHeader := (tagsRow.stop_le isSpan).2
    rcases List.mem_cons.mp isOwner with rfl | later
    · have apart := tagsApart _ isSpan
      omega
    · have apart := beyond owner later
      omega

/-- The warnings on copyright headers are sound, whatever the file was before and whatever is
demanded of tags. -/
theorem sound_check (policy : Policy) (year : Nat) (change : Change) (filename content : Text)
    (regions : List Region) (warnings : List Warning)
    (checks : check policy year change ⟨filename, Lines.ofText content, regions⟩ =
      .ok warnings) : Sound content warnings := by
  obtain ⟨headers, finds, checks⟩ := exists_of_bind_eq_ok _ _ _ checks
  have row := Header.row_all content headers finds
  have parts : ∃ years, NoticesOnly content headers years ∧
      (warnings = years ++ [] ∨
        warnings = years ++ (headers.head?.map (spdxWarnings policy.identifier)).getD []) := by
    dsimp only at checks
    split at checks
    · obtain ⟨years, yearsChecks, checks⟩ := exists_of_bind_eq_ok _ _ _ checks
      cases checks
      refine ⟨years, noticesOnly_historyWarnings year change content headers row years yearsChecks,
        ?_⟩
      split
      · exact Or.inr rfl
      · exact Or.inl rfl
    · cases checks
      refine ⟨[], noticesOnly_nil content headers, ?_⟩
      split
      · exact Or.inr rfl
      · exact Or.inl rfl
  obtain ⟨years, only, rfl | rfl⟩ := parts
  · rw [List.append_nil]
    exact ⟨only.placed, Replacement.apart_of_row _ only.onNotices.apart⟩
  · cases headers with
    | nil =>
      rw [List.head?_nil, Option.map_none, Option.getD_none, List.append_nil]
      exact ⟨only.placed, Replacement.apart_of_row _ only.onNotices.apart⟩
    | cons header rest => exact sound_append content policy.identifier header rest row years only

end SourceLint.Copyright
