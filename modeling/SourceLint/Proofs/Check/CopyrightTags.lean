/-
This file proves what the check comes to when tags are demanded: after the fix the first header has
the tag before its notice and the demanded license identifier, behind the same comment leader. What
is said on the years at the same time gives the notice another line, or concerns later headers, and
does not get in the way of the tags.
-/
import SourceLint.Proofs.Check.CopyrightYear
import SourceLint.Proofs.Copyright.Tagged

namespace SourceLint.Copyright

/-! ### What the years change -/

/-- What the line of the first header's notice becomes. -/
def firstLine (content : Text) (first : Header) (own : List Replacement) : Text :=
  Linter.splice (content.take first.lineStop) first.noticeStart own

/-- Replacements on the lines of notices: some on that of the first header, which then is a line
with a notice again, and the others where later notices begin. -/
structure OnLines (content : Text) (first : Header) (own later : List Replacement) : Prop where
  ownRow : Span.Row 0 first.lineStop first.noticeStart (own.map Replacement.span)
  laterRow : Span.Row 0 content.length first.stop (later.map Replacement.span)
  covers : ∀ replacement ∈ own ++ later, replacement.span.start < replacement.span.stop
  atNotice : ∀ replacement ∈ later, content[replacement.span.start]? = some 0x43
  isOneLine : (firstLine content first own).OneLine
  reads : ∃ notice, Notice.read? (firstLine content first own) = some notice

theorem firstLine_nil (content : Text) (first : Header) :
    firstLine content first [] = first.lineSpan.text content := by
  rw [firstLine, Linter.splice, List.drop_take]
  rfl

/-- What is put in from the notice on takes the place of what stands there. -/
theorem firstLine_singleton (content : Text) (first : Header) (stop : Nat) (newText : Text) :
    firstLine content first [⟨⟨first.noticeStart, stop⟩, newText⟩] =
      newText ++ content.slice stop first.lineStop := by
  rw [firstLine, Linter.splice, Text.slice_self, List.nil_append, Linter.splice, List.drop_take]
  rfl

section Lines

variable {content : Text} {first : Header} {others : List Header}
  (searched : Header.Searched content 0 (first :: others))

include searched

/-- Later headers are looked for behind the first one. -/
theorem others_searched : first.stop ≤ content.length ∧ Header.Searched content first.stop others ∧
    Text.EndsLine (content.drop first.stop) := by
  obtain ⟨⟨_, _, _, _, isFound⟩, behind, ends⟩ := searched.exists_found (Or.inl rfl)
  exact ⟨(Header.stop_bounds content 0 first isFound.next?_eq).2, behind, ends⟩

/-- A line of its own for the first header, and lines or notices of later ones. -/
theorem onLines {own later : List Replacement}
    (ownRow : Span.Row 0 first.lineStop first.noticeStart (own.map Replacement.span))
    (ownCovers : ∀ replacement ∈ own, replacement.span.start < replacement.span.stop)
    (isOneLine : (firstLine content first own).OneLine)
    (reads : ∃ notice, Notice.read? (firstLine content first own) = some notice)
    (laterRow : Span.Row 0 content.length first.stop (later.map Replacement.span))
    (laterOwner : ∀ replacement ∈ later, ∃ header ∈ others,
      replacement.span.start = header.noticeStart ∧
        header.noticeSpan.stop ≤ replacement.span.stop) :
    OnLines content first own later := by
  obtain ⟨_, behind, ends⟩ := others_searched searched
  have bounds := behind.notice_bounds (Or.inr ends)
  refine ⟨ownRow, laterRow, List.forall_mem_append.mpr ⟨ownCovers, fun replacement member => ?_⟩,
    fun replacement member => ?_, isOneLine, reads⟩
  · obtain ⟨header, isHeader, start, stop⟩ := laterOwner replacement member
    have covers := (bounds header isHeader).1
    omega
  · obtain ⟨header, isHeader, start, _⟩ := laterOwner replacement member
    rw [start]
    exact (bounds header isHeader).2.2.2

/-- Nothing is changed on the line of the first header. -/
theorem onLines_later {later : List Replacement}
    (laterRow : Span.Row 0 content.length first.stop (later.map Replacement.span))
    (laterOwner : ∀ replacement ∈ later, ∃ header ∈ others,
      replacement.span.start = header.noticeStart ∧
        header.noticeSpan.stop ≤ replacement.span.stop) :
    OnLines content first [] later := by
  obtain ⟨covers, within, _, _⟩ := searched.notice_bounds (Or.inl rfl) first List.mem_cons_self
  obtain ⟨isOneLine, reads⟩ := searched.line_of_mem (Or.inl rfl) first List.mem_cons_self
  refine onLines searched ?_ (by simp) ?_ ?_ laterRow laterOwner
  · exact Nat.le_trans (Nat.le_of_lt covers) within
  · rwa [firstLine_nil]
  · rw [firstLine_nil]
    exact ⟨_, reads⟩

/-- The lines of old notices that come back. -/
theorem onLines_reverts {oldContent : Text} {oldHeaders : List Header}
    (oldSearched : Header.Searched oldContent 0 oldHeaders)
    (sameLength : oldHeaders.length = (first :: others).length) :
    ∃ own later, reverts oldContent content oldHeaders (first :: others) = own ++ later ∧
      OnLines content first own later := by
  cases oldHeaders with
  | nil => cases sameLength
  | cons old oldRest =>
    obtain ⟨stopInText, behind, _⟩ := others_searched searched
    obtain ⟨covers, within, _, _⟩ := searched.notice_bounds (Or.inl rfl) first List.mem_cons_self
    obtain ⟨isOneLine, reads⟩ := oldSearched.line_of_mem (Or.inl rfl) old List.mem_cons_self
    let later := reverts oldContent content oldRest others
    have laterSpans : (later.map Replacement.span).Sublist (others.map Header.lineSpan) :=
      spans_reverts oldContent content oldRest others (Nat.succ.inj sameLength)
    have laterRow := (behind.row_lines stopInText).sublist laterSpans
    have laterOwner : ∀ replacement ∈ later, ∃ header ∈ others,
        replacement.span.start = header.noticeStart ∧
          header.noticeSpan.stop ≤ replacement.span.stop := by
      intro replacement member
      obtain ⟨header, isHeader, same⟩ :=
        List.mem_map.mp (laterSpans.subset (List.mem_map_of_mem member))
      rw [← same]
      exact ⟨header, isHeader, rfl, (behind.inText header isHeader).noticeStart_le_lineStop⟩
    rw [reverts_cons]
    split
    · exact ⟨[], later, rfl, onLines_later searched laterRow laterOwner⟩
    · have line : firstLine content first [⟨first.lineSpan, old.lineSpan.text oldContent⟩] =
          old.lineSpan.text oldContent := by
        have put := firstLine_singleton content first first.lineStop (old.lineSpan.text oldContent)
        rwa [Text.slice_self, List.append_nil] at put
      refine ⟨[_], later, rfl, onLines searched
        ⟨Nat.le_refl _, Nat.le_trans (Nat.le_of_lt covers) within, Nat.le_refl _⟩
        (List.forall_mem_singleton.mpr (Nat.lt_of_lt_of_le covers within)) ?_ ?_
        laterRow laterOwner⟩
      · rwa [line]
      · rw [line]
        exact ⟨_, reads⟩

/-- The newest notice that is brought up to date. -/
theorem onLines_yearWarning (year : Nat) (fourDigits : 1000 ≤ year ∧ year ≤ 9999) {newest : Header}
    (member : newest ∈ first :: others) :
    ∃ own later, (yearWarning year newest).replacements = own ++ later ∧
      OnLines content first own later := by
  obtain ⟨stopInText, behind, ends⟩ := others_searched searched
  rcases List.mem_cons.mp member with rfl | isLater
  · obtain ⟨covers, within, _, _⟩ := searched.notice_bounds (Or.inl rfl) newest List.mem_cons_self
    obtain ⟨isOneLine, reads⟩ := searched.line_of_mem (Or.inl rfl) newest List.mem_cons_self
    have line : firstLine content newest (yearWarning year newest).replacements =
        renewedLine content year newest :=
      firstLine_singleton _ _ _ _
    refine ⟨_, [], (List.append_nil _).symm, onLines searched
      ⟨Nat.le_refl _, Nat.le_of_lt covers, within⟩
      (List.forall_mem_singleton.mpr covers) ?_ ?_ stopInText (by simp)⟩
    · rw [line]
      exact (admits_renewedLine year fourDigits isOneLine reads).isOneLine
    · rw [line]
      exact ⟨_, reads_renewedLine year fourDigits reads⟩
  · obtain ⟨covers, within, inText, _⟩ := behind.notice_bounds (Or.inr ends) newest isLater
    have after := (behind.row_lines stopInText).start_le (List.mem_map_of_mem isLater)
    refine ⟨[], _, rfl, onLines_later searched
      ⟨after, Nat.le_of_lt covers, Nat.le_trans within inText⟩
      (List.forall_mem_singleton.mpr ⟨newest, isLater, rfl, Nat.le_refl _⟩)⟩

end Lines

/-! ### What the tags change -/

/-- What is replaced for some warnings. -/
def replaced (warnings : List Warning) : List Replacement := warnings.flatMap Warning.replacements

/-- The long text is gone. -/
theorem splice_longFormWarnings (content : Text) (header : Header) :
    Linter.splice (content.take header.stop) header.headStop (replaced (longFormWarnings header)) =
      [] := by
  rw [longFormWarnings, Header.stop]
  cases header.longForm with
  | none => exact List.drop_take_self
  | some longForm =>
    calc
      _ = Text.slice (content.take longForm.stop) header.headStop header.headStop ++ [] ++
          (content.take longForm.stop).drop longForm.stop := rfl
      _ = _ := by rw [Text.slice_self, List.drop_take_self]; rfl

/-- The replacements for the years and the tags, from the first to the last. -/
def ordered (identifier : Text) (first : Header) (own later : List Replacement) :
    List Replacement :=
  replaced (tagWarnings first) ++ (own ++ (replaced (licenseWarnings identifier first) ++
    (replaced (longFormWarnings first) ++ later)))

theorem perm_ordered (identifier : Text) (first : Header) (own later : List Replacement)
    (years : List Warning) (parts : replaced years = own ++ later) :
    (ordered identifier first own later).Perm
      (replaced (years ++ spdxWarnings identifier first)) := by
  have whole : replaced (years ++ spdxWarnings identifier first) =
      (own ++ later) ++
        ((replaced (tagWarnings first) ++ replaced (licenseWarnings identifier first)) ++
          replaced (longFormWarnings first)) := by
    rw [← parts]
    simp only [replaced, spdxWarnings, List.flatMap_append]
  rw [whole, ordered, List.perm_iff_count]
  intro replacement
  simp only [List.count_append]
  omega

/-- The points among the spans of some replacements. -/
def points (replacements : List Replacement) : List Span :=
  (replacements.map Replacement.span).filter Span.isPoint

theorem points_append (left right : List Replacement) :
    points (left ++ right) = points left ++ points right := by
  rw [points, List.map_append, List.filter_append]
  rfl

theorem points_eq_nil (replacements : List Replacement)
    (covers : ∀ replacement ∈ replacements, replacement.span.start < replacement.span.stop) :
    points replacements = [] := by
  rw [points, List.filter_eq_nil_iff, List.forall_mem_map]
  exact fun replacement member isPoint =>
    absurd ((Span.isPoint_iff _).mp isPoint) (Nat.ne_of_lt (covers replacement member))

theorem points_tagWarnings (header : Header) :
    (points (replaced (tagWarnings header))).Sublist [.point header.noticeStart] := by
  refine List.filter_sublist.trans ?_
  rw [tagWarnings]
  cases header.tagStart with
  | some _ => exact List.nil_sublist _
  | none => exact List.Sublist.refl _

section Tags

variable {content above before line below : Text} {first : Header}
  (isFound : Header.Found content 0 first above before line below)

include isFound

theorem take_noticeStart : content.take first.noticeStart = above ++ before := by
  rw [isFound.noticeStart_eq, isFound.around.whole, List.append_assoc, ← List.append_assoc above,
    ← List.length_append, List.take_left]

/-- Before the notice there is the tag then. -/
theorem splice_tagWarnings : ∃ count,
    Linter.splice (content.take first.noticeStart) 0 (replaced (tagWarnings first)) =
      above ++ (first.leader ++ (noticeTag ++ Text.spaces count)) := by
  obtain ⟨_, _, made⟩ := isFound.made
  have tagStart : first.tagStart =
      (Header.tagLength? before).map fun length => above.length + before.length - length := by
    rw [made]
    rfl
  rw [take_noticeStart isFound, isFound.leader_eq, tagWarnings, tagStart]
  cases reads : Header.tagLength? before with
  | some length =>
    obtain ⟨leader, count, rfl, _⟩ := Header.exists_of_tagLength? before length reads
    exact ⟨count, by rw [Header.leaderOf_append]; rfl⟩
  | none =>
    have whole : Header.leaderOf before = before := by
      rw [Header.leaderOf, reads, Option.getD_none, Nat.sub_zero, List.take_length]
    have place : first.noticeStart = (above ++ before).length := by
      rw [isFound.noticeStart_eq, List.length_append]
    have space : Text.ofString " " = Text.spaces 1 := by decide
    refine ⟨1, ?_⟩
    rw [whole, ← List.append_assoc, ← space]
    calc
      _ = Text.slice (above ++ before) 0 first.noticeStart ++ (noticeTag ++ Text.ofString " ") ++
          (above ++ before).drop first.noticeStart := rfl
      _ = _ := by
        rw [place, List.drop_length, List.append_nil, Text.slice, List.drop_zero, Nat.sub_zero,
          List.take_length]

/-- Below the notice's line there is the demanded identifier then. -/
theorem splice_licenseWarnings (identifier : Text) : ∃ (newline : Newline) (gap : Nat),
    Linter.splice (content.take first.headStop) first.lineStop
        (replaced (licenseWarnings identifier first)) =
      beforeIdentifier newline first.leader gap ++ identifier := by
  rw [licenseWarnings, Header.headStop]
  cases isLicense : first.license with
  | none =>
    have start : Text.ofString "\n" = Newline.lf.text := by decide
    have space : Text.ofString " " = Text.spaces 1 := by decide
    refine ⟨.lf, 1, ?_⟩
    calc
      _ = Text.slice (content.take first.lineStop) first.lineStop first.lineStop ++
          (Text.ofString "\n" ++ continuationLeader first.leader ++ licenseTag ++
            Text.ofString " " ++ identifier) ++
          (content.take first.lineStop).drop first.lineStop := rfl
      _ = _ := by
        rw [Text.slice_self, List.drop_take_self, start, space, beforeIdentifier]
        simp only [List.nil_append, List.append_nil, List.append_assoc]
  | some license =>
    obtain ⟨newline, gap, behind, belowWhole, place⟩ := isFound.exists_beforeIdentifier isLicense
    have stop : license.textSpan.stop = license.textSpan.start + license.identifier.length := rfl
    have within : license.textSpan.start ≤ license.textSpan.stop := Nat.le_add_right _ _
    have dropped : content.drop first.lineStop =
        beforeIdentifier newline first.leader gap ++ (license.identifier ++ behind) :=
      isFound.drop_lineStop.trans belowWhole
    have sliced : content.slice first.lineStop license.textSpan.start =
        beforeIdentifier newline first.leader gap := by
      rw [Text.slice, dropped, place, Nat.add_sub_cancel_left, List.take_left]
    refine ⟨newline, gap, ?_⟩
    dsimp only
    by_cases same : license.identifier = identifier
    · have width : license.textSpan.stop - first.lineStop =
          (beforeIdentifier newline first.leader gap ++ license.identifier).length := by
        rw [stop, place, List.length_append]
        omega
      rw [if_pos same, ← same]
      calc
        _ = (content.take license.textSpan.stop).drop first.lineStop := rfl
        _ = _ := by rw [List.drop_take, dropped, width, ← List.append_assoc, List.take_left]
    · rw [if_neg same]
      calc
        _ = Text.slice (content.take license.textSpan.stop) first.lineStop license.textSpan.start ++
            identifier ++ (content.take license.textSpan.stop).drop license.textSpan.stop := rfl
        _ = _ := by
          rw [Text.slice_take _ _ _ _ within, sliced, List.drop_take_self, List.append_nil]

theorem points_licenseWarnings (identifier : Text) :
    (points (replaced (licenseWarnings identifier first))).Sublist [.point first.lineStop] := by
  rw [licenseWarnings]
  cases isLicense : first.license with
  | none => exact List.filter_sublist
  | some license =>
    dsimp only
    split
    · exact List.nil_sublist _
    · obtain ⟨_, _, _, _, _, _, covers, _⟩ := isFound.nested.license license isLicense
      rw [points_eq_nil (replaced [_])]
      · exact List.nil_sublist _
      · exact List.forall_mem_singleton.mpr covers

theorem points_longFormWarnings : points (replaced (longFormWarnings first)) = [] := by
  refine points_eq_nil _ ?_
  rw [longFormWarnings]
  cases isLongForm : first.longForm with
  | none => simp [replaced]
  | some longForm =>
    obtain ⟨placed, beyond⟩ := isFound.inText.longForm longForm isLongForm
    exact List.forall_mem_singleton.mpr (Nat.lt_of_lt_of_le beyond placed.1)

/-- Behind the header there is nothing but white space on the line, whatever later lines become. -/
theorem endsLine_later {own later : List Replacement} (changes : OnLines content first own later) :
    Text.EndsLine (Linter.splice content first.stop later) := by
  have ends := isFound.endsLine
  cases later with
  | nil => exact ends
  | cons replacement rest =>
    obtain ⟨after, _, _⟩ := changes.laterRow
    rw [Nat.add_zero] at after
    obtain ⟨nextAbove, nextBefore, nextLine, nextBelow, around, place, isFirst⟩ :=
      Text.exists_around content _ 0x43 (changes.atNotice replacement List.mem_cons_self)
      (by decide)
    rw [← place] at after
    have onLater := ends.length_lt around isFirst (by decide) after
    have notEmpty : nextAbove.drop first.stop ≠ [] := fun empty =>
      absurd (List.drop_eq_nil_iff.mp empty) (Nat.not_le_of_lt onLater)
    have dropped : content.drop first.stop =
        nextAbove.drop first.stop ++ ((nextBefore ++ nextLine) ++ nextBelow) := by
      rw [around.whole, List.drop_append_of_le_length (Nat.le_of_lt onLater)]
    rw [dropped] at ends
    rw [Linter.splice, ← place, around.slice_eq _ after,
      List.drop_append_of_le_length (Nat.le_of_lt onLater), List.append_assoc, List.append_assoc]
    exact ends.of_fillsLines (around.fills.drop _) notEmpty

/-! ### All changes -/

section Changes

variable {own later : List Replacement} (changes : OnLines content first own later)

include changes

theorem row_ordered (identifier : Text) : Span.Row 0 content.length 0
    ((ordered identifier first own later).map Replacement.span) := by
  have inText := isFound.inText
  exact Linter.row_append ((tagWarnings_sound inText).2.of_le (Nat.zero_le _))
    (Linter.row_append changes.ownRow (Linter.row_append (licenseWarnings_sound inText identifier).2
      (Linter.row_append (longFormWarnings_sound inText).2 changes.laterRow)))

/-- The only replacements that cover nothing put in the tag before the notice and the identifier at
the end of its line. -/
theorem nodup_ordered (identifier : Text) :
    ((ordered identifier first own later).map Replacement.span).Nodup := by
  obtain ⟨ownCovers, laterCovers⟩ := List.forall_mem_append.mp changes.covers
  have places : [Span.point first.noticeStart, Span.point first.lineStop].Nodup := by
    rw [List.nodup_cons, List.mem_singleton]
    refine ⟨fun same => ?_, List.nodup_singleton _⟩
    have starts : first.noticeStart = first.lineStop := congrArg Span.start same
    have bound := isFound.nested.years
    have within := isFound.inText.noticeStart_le_lineStop
    dsimp only [Header.noticeSpan] at bound
    omega
  refine (row_ordered isFound changes identifier).nodup_of_points (places.sublist ?_)
  show (points (ordered identifier first own later)).Sublist _
  simp only [ordered, points_append, points_eq_nil own ownCovers, points_eq_nil later laterCovers,
    points_longFormWarnings isFound, List.nil_append, List.append_nil]
  exact (points_tagWarnings first).append (points_licenseWarnings isFound identifier)

/-- What the fix comes to: a header with both tags on two lines, and behind it what comes after the
header. -/
theorem splice_ordered (identifier : Text) :
    ∃ (count gap : Nat) (newline : Newline),
    Linter.splice content 0 (ordered identifier first own later) =
      (above ++ (first.leader ++ (noticeTag ++ Text.spaces count))) ++
        (firstLine content first own ++ (beforeIdentifier newline first.leader gap ++
          (identifier ++ Linter.splice content first.stop later))) := by
  have inText := isFound.inText
  obtain ⟨count, tag⟩ := splice_tagWarnings isFound
  obtain ⟨newline, gap, license⟩ := splice_licenseWarnings isFound identifier
  have longForm := splice_longFormWarnings content first
  have tagRow : Span.Row 0 first.noticeStart 0
      ((replaced (tagWarnings first)).map Replacement.span) :=
    (tagWarnings_sound inText).2.of_le (Nat.zero_le _)
  have licenseRow : Span.Row 0 first.headStop first.lineStop
      ((replaced (licenseWarnings identifier first)).map Replacement.span) :=
    (licenseWarnings_sound inText identifier).2
  have longFormRow : Span.Row 0 first.stop first.headStop
      ((replaced (longFormWarnings first)).map Replacement.span) :=
      (longFormWarnings_sound inText).2
  have fromLongForm := Linter.row_append longFormRow changes.laterRow
  have fromLicense := Linter.row_append licenseRow fromLongForm
  have fromNotice := Linter.row_append changes.ownRow fromLicense
  refine ⟨count, gap, newline, ?_⟩
  calc
    _ = Linter.splice (content.take first.noticeStart) 0 (replaced (tagWarnings first)) ++
        (firstLine content first own ++
          (Linter.splice (content.take first.headStop) first.lineStop
              (replaced (licenseWarnings identifier first)) ++
            (Linter.splice (content.take first.stop) first.headStop
                (replaced (longFormWarnings first)) ++
              Linter.splice content first.stop later))) := by
      rw [ordered, Linter.splice_append_of_row _ _ _ _ _ tagRow fromNotice,
        Linter.splice_append_of_row _ _ _ _ _ changes.ownRow fromLicense,
        Linter.splice_append_of_row _ _ _ _ _ licenseRow fromLongForm,
        Linter.splice_append_of_row _ _ _ _ _ longFormRow changes.laterRow]
      rfl
    _ = _ := by
      rw [tag, license, longForm]
      simp only [List.nil_append, List.append_assoc]

/-- Behind the header that the fix writes there is nothing but white space on the line. -/
theorem exists_fixed_of_tags (identifier : Text) :
    ∃ (count gap : Nat) (newline : Newline) (behind : Text),
    Linter.splice content 0 (ordered identifier first own later) =
      (above ++ (first.leader ++ (noticeTag ++ Text.spaces count))) ++
        (firstLine content first own ++
          (beforeIdentifier newline first.leader gap ++ (identifier ++ behind))) ∧
      behind.EndsLine := by
  obtain ⟨count, gap, newline, whole⟩ := splice_ordered isFound changes identifier
  exact ⟨count, gap, newline, _, whole, endsLine_later isFound changes⟩

end Changes

end Tags

/-! ### The check with tags -/

/-- Tags are demanded of all files, or of those that have changed. -/
def Policy.Demands (policy : Policy) (change : Change) (content : Text) : Prop :=
  policy.forceSpdx = true ∨ policy.spdx = true ∧ change.oldContent ≠ some content

/-- With a demand for tags the years are looked at if the file has changed, and then the tags of the
first header, if there is one. -/
theorem check_eq_of_demands (policy : Policy) (year : Nat) (change : Change)
    (filename content : Text) (regions : List Region) (headers : List Header)
    (finds : Header.all (Lines.ofText content) = .ok headers)
    (demands : policy.Demands change content) :
    check policy year change ⟨filename, Lines.ofText content, regions⟩ =
      (if change.oldContent = some content then .ok []
        else historyWarnings year change content headers).map fun years =>
          years ++ (headers.head?.map (spdxWarnings policy.identifier)).getD [] := by
  have contentOf : Source.content ⟨filename, Lines.ofText content, regions⟩ = content := rfl
  have asked : (policy.forceSpdx ||
      (policy.spdx && decide (change.oldContent ≠ some content))) = true := by
    rcases demands with force | ⟨spdx, changed⟩
    · rw [force, Bool.true_or]
    · rw [spdx, decide_eq_true changed, Bool.and_self, Bool.or_true]
  rw [check]
  simp only [finds, bind, Except.bind, contentOf, asked, if_true]
  by_cases same : change.oldContent = some content
  · simp [same, pure, Except.pure, Except.map]
  · rw [if_pos (by simpa using same), if_neg same]
    cases historyWarnings year change content headers <;> rfl

theorem check_of_demands (policy : Policy) (year : Nat) (change : Change)
    (filename content : Text) (regions : List Region) (first : Header) (others : List Header)
    (finds : Header.all (Lines.ofText content) = .ok (first :: others))
    (demands : policy.Demands change content) :
    check policy year change ⟨filename, Lines.ofText content, regions⟩ =
      (if change.oldContent = some content then .ok []
        else historyWarnings year change content (first :: others)).map fun years =>
          years ++ spdxWarnings policy.identifier first :=
  check_eq_of_demands policy year change filename content regions _ finds demands

/-- What is said on the years concerns lines of notices. -/
theorem exists_onLines {content : Text} {first : Header} {others : List Header}
    (searched : Header.Searched content 0 (first :: others)) (year : Nat)
    (fourDigits : 1000 ≤ year ∧ year ≤ 9999) (change : Change)
    (oldFinds : ∀ oldContent, change.oldContent = some oldContent →
      ∃ oldHeaders, Header.all (Lines.ofText oldContent) = .ok oldHeaders)
    (noZero : ∀ header ∈ first :: others, header.notice.firstYear.head? ≠ some 0x30) :
    ∃ years own later,
      (if change.oldContent = some content then .ok []
        else historyWarnings year change content (first :: others)) = .ok years ∧
      replaced years = own ++ later ∧ OnLines content first own later := by
  have nothing : OnLines content first [] [] :=
    onLines_later searched (others_searched searched).1 (by simp)
  obtain ⟨own, later, parts, changes⟩ : ∃ own later,
      replaced (yearWarnings year (first :: others)) = own ++ later ∧
        OnLines content first own later := by
    obtain ⟨before, newest, after, isNewest, warnings⟩ :=
      exists_yearWarnings_eq year searched (List.cons_ne_nil _ _) noZero
    rw [warnings]
    split
    · exact ⟨[], [], rfl, nothing⟩
    · have member : newest ∈ first :: others := by
        rw [isNewest.split]
        exact List.mem_append_right _ List.mem_cons_self
      exact onLines_yearWarning searched year fourDigits member
  split
  · exact ⟨[], [], [], rfl, rfl, nothing⟩
  · rw [historyWarnings]
    cases isOld : change.oldContent with
    | none => exact ⟨_, own, later, rfl, parts, changes⟩
    | some oldContent =>
      obtain ⟨oldHeaders, oldFinds⟩ := oldFinds oldContent isOld
      simp only [oldFinds, bind, Except.bind]
      split
      case isTrue samePieces =>
        obtain ⟨old, oldLater, oldParts, oldChanges⟩ := onLines_reverts searched
          ((Header.all_eq_ok_iff _ _).mp oldFinds) (length_eq_of_samePieces samePieces)
        exact ⟨_, old, oldLater, rfl, (replacements_revertWarnings _ _ _ _ _).trans oldParts,
          oldChanges⟩
      case isFalse => exact ⟨_, own, later, rfl, parts, changes⟩

/-- After the fix of a file of which tags are demanded, its first header has the tag before the
notice and the demanded identifier, behind the same comment leader. -/
theorem fix_tags_of_demands (policy : Policy) (year : Nat)
    (fourDigits : 1000 ≤ year ∧ year ≤ 9999) (change : Change) (filename content : Text)
    (regions : List Region) (first : Header) (others : List Header)
    (finds : Header.all (Lines.ofText content) = .ok (first :: others))
    (oldFinds : ∀ oldContent, change.oldContent = some oldContent →
      ∃ oldHeaders, Header.all (Lines.ofText oldContent) = .ok oldHeaders)
    (noZero : ∀ header ∈ first :: others, header.notice.firstYear.head? ≠ some 0x30)
    (demands : policy.Demands change content) (isIdentifier : IsIdentifier policy.identifier)
    (notReserved : policy.identifier ∉ LicenseEntry.reservedWords) :
    ∃ warnings, check policy year change ⟨filename, Lines.ofText content, regions⟩ = .ok warnings ∧
      ((∀ warning ∈ warnings,
          Source.isEnabled ⟨filename, Lines.ofText content, regions⟩ warning = true) →
        ∃ fixed, (⟨⟨filename, Lines.ofText content, regions⟩, warnings⟩ : Linter).fix = .ok fixed ∧
          ∃ header, Header.next? (Lines.ofText fixed) 0 = .ok (some header) ∧
            header.tagStart.isSome = true ∧ header.leader = first.leader ∧
            ∃ license, header.license = some license ∧
              license.textSpan.text fixed = policy.identifier) := by
  have searched := (Header.all_eq_ok_iff _ _).mp finds
  obtain ⟨⟨above, before, line, below, isFound⟩, _, _⟩ := searched.exists_found (Or.inl rfl)
  obtain ⟨years, own, later, history, parts, changes⟩ :=
    exists_onLines searched year fourDigits change oldFinds noZero
  refine ⟨years ++ spdxWarnings policy.identifier first, ?_, fun enabled => ?_⟩
  · rw [check_of_demands policy year change filename content regions first others finds demands,
      history]
    rfl
  · obtain ⟨count, gap, newline, behind, fixed, ends⟩ :=
      exists_fixed_of_tags isFound changes policy.identifier
    have fixes := Linter.fix_eq_splice ⟨filename, Lines.ofText content, regions⟩ _ enabled
      (ordered policy.identifier first own later)
      (perm_ordered policy.identifier first own later years parts)
      (row_ordered isFound changes policy.identifier)
      (nodup_ordered isFound changes policy.identifier)
    obtain ⟨header, headerFound, license, isLicense, same⟩ := Header.exists_found_of_tags fixed
      isFound.around.fills isFound.isOneLine_leader isFound.free_leader changes.isOneLine
      changes.reads isIdentifier notReserved ends
    refine ⟨_, fixes, header, headerFound.next?_eq, ?_, ?_, license, isLicense, ?_⟩
    · obtain ⟨_, _, made⟩ := headerFound.made
      rw [made, Header.make, Header.tagLength?_append]
      rfl
    · rw [headerFound.leader_eq, Header.leaderOf_append]
    · exact (headerFound.textSpan_text isLicense).trans same

/-- A file with a notice of an earlier year in a block comment, and with no tag. -/
def untagged : Source :=
  Source.ofText "file.txt" "/* Copyright (c) 2022 NVIDIA CORPORATION\n */\nx\n" checkName

theorem fix_tags_untagged :
    ∃ warnings, check { forceSpdx := true } 2024 ⟨.added, none, none⟩ untagged = .ok warnings ∧
      (∀ warning ∈ warnings, untagged.isEnabled warning = true) ∧
      ∃ fixed, (⟨untagged, warnings⟩ : Linter).fix = .ok fixed ∧
        ∃ header, Header.next? (Lines.ofText fixed) 0 = .ok (some header) ∧
          header.tagStart.isSome = true ∧ header.leader = "/* " ∧
          ∃ license, header.license = some license ∧
            license.textSpan.text fixed = "Apache-2.0" := by
  have finds : Header.all untagged.lines =
      .ok [⟨3, ⟨14, "2022", none, 37⟩, 40, none, "/* ", none, none⟩] := by decide +kernel
  have enabled : (check { forceSpdx := true } 2024 ⟨.added, none, none⟩ untagged).map
      (fun warnings => warnings.all untagged.isEnabled) = .ok true := by decide +kernel
  obtain ⟨warnings, checks, fixing⟩ := fix_tags_of_demands { forceSpdx := true } 2024 (by decide)
    ⟨.added, none, none⟩ untagged.filename untagged.content untagged.regions _ [] finds
    (fun _ isOld => absurd isOld.symm (Option.some_ne_none _)) (by decide) (Or.inl rfl)
    (by decide +kernel) (by decide)
  have all : ∀ warning ∈ warnings, untagged.isEnabled warning = true := by
    have counted : (check { forceSpdx := true } 2024 ⟨.added, none, none⟩ untagged).map
        (fun warnings => warnings.all untagged.isEnabled) =
          .ok (warnings.all untagged.isEnabled) := congrArg (Except.map _) checks
    exact List.all_eq_true.mp (Except.ok.inj (counted.symm.trans enabled))
  exact ⟨warnings, checks, all, fixing all⟩

/-- A file with a current notice. -/
def current : Source :=
  Source.ofText "file.txt" "# Copyright (c) 2024 NVIDIA CORPORATION\nx\n" checkName

/-- A word that the table of license texts keeps for itself is no identifier to demand: the header
that the fix writes stops the search for headers. -/
theorem search_stops_at_reserved :
    IsIdentifier "constructor" ∧
      ∃ warnings fixed, check { forceSpdx := true, identifier := "constructor" } 2024
          ⟨.added, none, none⟩ current = .ok warnings ∧
        (∀ warning ∈ warnings, current.isEnabled warning = true) ∧
        (⟨current, warnings⟩ : Linter).fix = .ok fixed ∧
        Header.next? (Lines.ofText fixed) 0 = .error (.reservedIdentifier "constructor") := by
  have enabled : ∀ warning ∈ [
      (⟨⟨2, 39⟩, "include SPDX-FileCopyrightText header",
        [⟨⟨2, 2⟩, "SPDX-FileCopyrightText: "⟩], []⟩ : Warning),
      ⟨⟨2, 39⟩, "no SPDX-License-Identifier header found",
        [⟨⟨39, 39⟩, "\n# SPDX-License-Identifier: constructor"⟩], []⟩],
      current.isEnabled warning = true := by decide +kernel
  have inside : 39 ≤ current.content.length := by decide +kernel
  refine ⟨by decide +kernel, _, _, ?_, enabled,
    Linter.fix_eq_splice _ _ enabled _ (List.Perm.refl _)
      ⟨by decide, by decide, by decide, by decide, inside⟩ (by decide), ?_⟩
  · decide +kernel
  · decide +kernel

end SourceLint.Copyright
