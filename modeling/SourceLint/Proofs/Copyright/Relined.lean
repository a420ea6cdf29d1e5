/-
This file proves that the headers of a text stay what they are when the lines of their notices are
changed: the notice with what follows it on its line may become any other notice with what follows
it. All that may go wrong is that a line with a notice behind the tag of a license identifier begins
to read as such an identifier, which only a line terminator in it has kept it from.
-/
import SourceLint.Proofs.Copyright.Searched

namespace SourceLint.Copyright

/-! ### The lines below a changed line -/

/-- Where a line stands and how it ends has no influence on whether a license identifier is read. -/
theorem Header.licenseOnLine?_eq_none (leader text : Text) (start other : Nat)
    (ending otherEnding : Option Newline)
    (isNone : licenseOnLine? leader ⟨start, text, ending⟩ = none) :
    licenseOnLine? leader ⟨other, text, otherEnding⟩ = none := by
  have moved (place : Nat) (ending : Option Newline) :
      licenseOnLine? leader ⟨place, text, ending⟩ =
        (licenseOnLine? leader ⟨0, text, none⟩).map fun license => license.shift place := by
    rw [← licenseOnLine?_shift, Line.shift, Nat.zero_add]
    rfl
  rw [moved, Option.map_eq_none_iff] at isNone
  rw [moved, isNone, Option.map_none]

/-- A line with a notice that is no line with a license identifier stays none. -/
theorem Header.licenseOnLine?_of_notice (leader before line changed : Text)
    (free : Notice.Free leader) (notice changedNotice : Notice)
    (reads : Notice.read? line = some notice)
    (changedReads : Notice.read? changed = some changedNotice)
    (breaks : licenseTag <:+: before → line.BreaksWithin → changed.BreaksWithin)
    (start other : Nat) (ending otherEnding : Option Newline)
    (isNone : licenseOnLine? leader ⟨start, before ++ line, ending⟩ = none) :
    licenseOnLine? leader ⟨other, before ++ changed, otherEnding⟩ = none := by
  cases again : licenseOnLine? leader ⟨other, before ++ changed, otherEnding⟩ with
  | none => rfl
  | some license =>
    exfalso
    obtain ⟨rest, readsLeader, readsLicense⟩ := Option.bind_eq_some_iff.mp again
    obtain ⟨behind, readsTag, _⟩ := Option.bind_eq_some_iff.mp readsLicense
    have whole : before ++ changed = leader ++ (licenseTag ++ behind) := by
      rw [← Text.after?_eq_some _ _ _ readsTag]
      exact Text.after?_eq_some _ _ _ readsLeader
    obtain ⟨middle, rfl, rfl⟩ :=
      exists_of_tag_on_line leader before changed behind free _ changedReads whole
    have inBefore : licenseTag <:+: leader ++ (licenseTag ++ middle) := ⟨leader, middle, by simp⟩
    rw [licenseOnLine?, List.append_assoc, List.append_assoc, Text.after?_append,
      Option.bind_eq_bind, Option.bind_some] at isNone again
    rw [LicenseLine.read?_notice _ (other + leader.length) middle line changed notice
      changedNotice reads changedReads (breaks inBefore) isNone] at again
    cases again

/-- What is beneath a notice does not change with the next notice. -/
theorem beneath_changed {below changedBelow above before line changed after changedAfter : Text}
    (around : below.Around above (before ++ line) after)
    (changedAround : changedBelow.Around above (before ++ changed) changedAfter)
    (notEmpty : above ≠ []) {leader : Text} (free : Notice.Free leader)
    {notice changedNotice : Notice} (reads : Notice.read? line = some notice)
    (changedReads : Notice.read? changed = some changedNotice)
    (breaks : licenseTag <:+: before → line.BreaksWithin → changed.BreaksWithin)
    (noLicense : (partsAbove above).tail = [] →
      Header.licenseOnLine? (continuationLeader leader) ⟨0, before ++ line, none⟩ = none) :
    lineBreak changedBelow = lineBreak below ∧
      ∀ start, beneath leader (placeLines start (partsBelow changedBelow)) =
        beneath leader (placeLines start (partsBelow below)) := by
  have parts := around.physicalLines_eq
    (List.append_ne_nil_of_right_ne_nil before (Notice.ne_nil_of_read? _ _ reads))
  have changedParts := changedAround.physicalLines_eq
    (List.append_ne_nil_of_right_ne_nil before (Notice.ne_nil_of_read? _ _ changedReads))
  obtain ⟨first, common, isFirst⟩ :=
    List.exists_cons_of_ne_nil (partsAbove_ne_nil above around.fills notEmpty)
  rw [isFirst, List.cons_append] at parts changedParts
  rw [isFirst, List.tail_cons] at noLicense
  refine ⟨?_, fun start => ?_⟩
  · rw [lineBreak, lineBreak, lineEnding, lineEnding, parts, changedParts]
    rfl
  · rw [partsBelow, partsBelow, parts, changedParts, List.tail_cons, List.tail_cons,
      placeLines_append, placeLines_append, placeLines, placeLines]
    refine beneath_unread (placeLines start common) _ _ _ _ rfl
      (fun leader free => unread_of_notice free _ _ changedReads _ _)
      (fun leader free => unread_of_notice free _ _ reads _ _) free fun noLines => ?_
    have noCommon : common = [] := by
      cases common with
      | nil => rfl
      | cons part rest => cases noLines
    have isNone := noLicense noCommon
    exact ⟨Header.licenseOnLine?_of_notice _ _ _ _ (continuationLeader_free free) _ _ reads
      changedReads breaks _ _ _ _ isNone, Header.licenseOnLine?_eq_none _ _ _ _ _ _ isNone⟩

/-! ### One changed line -/

/-- How far what stands beneath a notice goes, where positions count from the stop of its line. -/
def Beneath.reach (found : Beneath) : Nat :=
  match found.longForm, found.license with
  | some longForm, _ => longForm.stop
  | none, some license => license.textSpan.stop
  | none, none => 0

namespace Header

theorem stop_make (lineStart : Nat) (before line : Text) (notice : Notice) (found : Beneath) :
    (make lineStart before line notice
      (found.shift (lineStart + before.length + line.length))).stop =
        found.reach + (lineStart + before.length + line.length) := by
  obtain ⟨license, longForm⟩ := found
  cases longForm with
  | some longForm => rfl
  | none =>
    cases license with
    | some license =>
      dsimp only [make, stop, headStop, Beneath.shift, Beneath.reach, LicenseLine.shift,
        LicenseLine.textSpan, Option.map_some, Option.map_none]
      omega
    | none => exact (Nat.zero_add _).symm

/-- A line may be changed with what stands above and below, if the lines below read as before. -/
theorem Found.reline {content above before line below : Text} {start : Nat} {header : Header}
    (isFound : Found content start header above before line below)
    {changedContent changedAbove changed changedBelow : Text} {changedStart : Nat}
    (around : changedContent.Around changedAbove (before ++ changed) changedBelow)
    (start_le : changedStart ≤ changedAbove.length)
    (free : Notice.Free ((changedAbove ++ before).drop changedStart)) {notice : Notice}
    (reads : Notice.read? changed = some notice)
    (sameBreak : lineBreak changedBelow = lineBreak below)
    (sameBeneath : ∀ start, beneath (leaderOf before) (placeLines start (partsBelow changedBelow)) =
      beneath (leaderOf before) (placeLines start (partsBelow below))) :
    ∃ changedHeader,
      Found changedContent changedStart changedHeader changedAbove before changed changedBelow ∧
        changedHeader.stop + header.lineStop = header.stop + changedHeader.lineStop := by
  obtain ⟨found, isBeneath, made⟩ := isFound.made
  have lines (stop : Nat) : placeLines (stop + (lineBreak below).length) (partsBelow below) =
      (placeLines (lineBreak below).length (partsBelow below)).map fun line => line.shift stop := by
    rw [Nat.add_comm, placeLines_shift]
  rw [linesBelow, lines, beneath_shift] at isBeneath
  obtain ⟨fromStop, isFromStop, rfl⟩ := exists_of_map_eq_ok _ _ _ isBeneath
  refine ⟨make changedAbove.length before changed notice
      (fromStop.shift (changedAbove.length + before.length + changed.length)),
    ⟨around, start_le, free, reads, _, ?_, rfl⟩, ?_⟩
  · rw [linesBelow, sameBreak, sameBeneath, lines, beneath_shift, isFromStop]
    rfl
  · rw [stop_make, isFound.lineStop_eq, made, stop_make]
    dsimp only [make]
    omega

/-! ### All lines changed -/

/-- A text can take the place of a notice with what follows it on its line. -/
structure Admits (content : Text) (header : Header) (line : Text) : Prop where
  isOneLine : line.OneLine
  reads : ∃ notice, Notice.read? line = some notice
  breaks : licenseTag <:+: header.leader →
    Text.BreaksWithin (header.lineSpan.text content) → line.BreaksWithin

/-- The replacements that change the lines of notices. -/
def relines (pairs : List (Header × Text)) : List Replacement :=
  pairs.map fun pair => ⟨pair.1.lineSpan, pair.2⟩

theorem splice_relines_cons (content : Text) (start : Nat) (pair : Header × Text)
    (rest : List (Header × Text)) :
    Linter.splice content start (relines (pair :: rest)) =
      content.slice start pair.1.noticeStart ++ pair.2 ++
        Linter.splice content pair.1.lineStop (relines rest) := rfl

/-- Changes on the lines of later headers come after a header and the end of its last line. -/
theorem Searched.relines_beyond {content : Text} {start : Nat} {pairs : List (Header × Text)}
    (searched : Searched content start (pairs.map Prod.fst))
    (ends : Text.EndsLine (content.drop start)) :
    ∀ replacement ∈ (relines pairs).head?, start < replacement.span.start ∧
      replacement.span.start ≤ content.length := by
  intro replacement isFirst
  obtain ⟨pair, isPair, rfl⟩ := List.mem_map.mp (List.mem_of_head? isFirst)
  have isHeader : pair.1 ∈ pairs.map Prod.fst := List.mem_map_of_mem isPair
  have beyond := (searched.apart (Or.inr ends)).2 ends pair.1 isHeader
  have inText := searched.inText pair.1 isHeader
  have bound := inText.noticeStart_le_lineStop
  obtain ⟨line, isLine, _, before, _, stop⟩ := inText.line
  have lineBound := Lines.stop_le_length content line isLine
  dsimp only [span, lineSpan] at beyond ⊢
  omega

/-- Where a line stops, it still does when there are changes further on only. -/
theorem closesLine_splice {content : Text} {start : Nat} {replacements : List Replacement}
    (closes : Text.ClosesLine (content.drop start))
    (beyond : ∀ replacement ∈ replacements.head?, start < replacement.span.start ∧
      replacement.span.start ≤ content.length) :
    Text.ClosesLine (Linter.splice content start replacements) := by
  cases replacements with
  | nil => exact closes
  | cons replacement rest =>
    obtain ⟨behind, inside⟩ := beyond replacement (Option.mem_some_self replacement)
    intro unit isFirst
    rw [Linter.head?_splice content start _ (Nat.lt_of_lt_of_le behind inside)
      fun first isFirst => (beyond first isFirst).1] at isFirst
    exact closes unit isFirst

/-- If the next line has a notice of its own that is looked for behind the header, then it has no
license identifier of the header. -/
theorem Found.noLicense {content above before line below : Text} {start : Nat} {header : Header}
    (isFound : Found content start header above before line below)
    {nextAbove nextBefore nextLine nextBelow : Text}
    (around : below.Around nextAbove (nextBefore ++ nextLine) nextBelow)
    (notEmpty : nextLine ≠ []) (nextAboveNotEmpty : nextAbove ≠ [])
    (beyond : header.stop < header.lineStop + nextAbove.length)
    (isNext : (partsAbove nextAbove).tail = []) :
    licenseOnLine? (continuationLeader (leaderOf before))
      ⟨0, nextBefore ++ nextLine, none⟩ = none := by
  have textNotEmpty := List.append_ne_nil_of_right_ne_nil nextBefore notEmpty
  have parts := around.physicalLines_eq textNotEmpty
  obtain ⟨first, common, isFirst⟩ :=
    List.exists_cons_of_ne_nil (partsAbove_ne_nil nextAbove around.fills nextAboveNotEmpty)
  rw [isFirst, List.tail_cons] at isNext
  rw [isFirst, isNext] at parts
  have length : nextAbove.length = (lineBreak below).length := by
    rw [← around.flatMap_partsAbove textNotEmpty, isFirst, isNext]
    have first_eq : first = ([], lineEnding below) := by
      have closed := physicalLines_of_closesLine below isFound.around.closes
      rw [parts] at closed
      exact (List.cons.inj closed).1
    rw [first_eq, lineBreak]
    simp [partText]
  obtain ⟨found, isBeneath, made⟩ := isFound.made
  rw [← isFound.lineStop_eq, linesBelow, partsBelow, parts, List.cons_append, List.nil_append,
    List.tail_cons, placeLines] at isBeneath
  rcases beneath_eq_ok _ _ _ isBeneath with ⟨_, isNone, _⟩ |
    ⟨license, next, rest, isSome, lines, reads, _⟩
  · exact licenseOnLine?_eq_none _ _ _ _ _ _ isNone
  · exfalso
    cases lines
    have bounds := licenseOnLine?_bounds _ _ _ reads
    have isLicense : header.license = some license := by rw [made]; exact isSome
    have stop := isFound.inText.headStop_le_stop
    rw [headStop, isLicense] at stop
    dsimp only [LicenseLine.textSpan] at bounds stop
    omega

/-- What is beneath a notice does not change with the lines of later notices. -/
theorem Searched.below_relined {content above before line below : Text} {start : Nat}
    {header : Header} (isFound : Found content start header above before line below)
    (pairs : List (Header × Text)) (others : Searched content header.stop (pairs.map Prod.fst))
    (admits : ∀ pair ∈ pairs, Admits content pair.1 pair.2) {changedBelow : Text}
    (changedWhole : changedBelow = content.slice header.lineStop header.stop ++
      Linter.splice content header.stop (relines pairs)) :
    changedBelow.ClosesLine ∧ lineBreak changedBelow = lineBreak below ∧
      ∀ start, beneath (leaderOf before) (placeLines start (partsBelow changedBelow)) =
        beneath (leaderOf before) (placeLines start (partsBelow below)) := by
  have inText := isFound.inText
  have forward : header.lineStop ≤ header.stop :=
    Nat.le_trans inText.headStop_in_line.1 inText.headStop_le_stop
  have belowWhole : below =
      content.slice header.lineStop header.stop ++ content.drop header.stop := by
    rw [Text.slice_append_drop _ _ _ forward, isFound.drop_lineStop]
  cases pairs with
  | nil =>
    have same : changedBelow = below := changedWhole.trans belowWhole.symm
    rw [same]
    exact ⟨isFound.around.closes, rfl, fun _ => rfl⟩
  | cons pair rest =>
    obtain ⟨next, changed⟩ := pair
    obtain ⟨admitsNext, admitsRest⟩ := List.forall_mem_cons.mp admits
    obtain ⟨⟨nextAbove, nextBefore, nextLine, nextBelow, isNext⟩, restSearched, ends⟩ :=
      Searched.exists_found others (Or.inr isFound.endsLine)
    obtain ⟨changedNotice, changedReads⟩ := admitsNext.reads
    have beyond := isFound.endsLine.length_lt isNext.around (Notice.head?_of_read? _ _ isNext.reads)
      (by decide) (Nat.le_trans isNext.start_le (Nat.le_add_right _ _))
    have stopInText := (stop_bounds content start header isFound.next?_eq).2
    -- What stands between the line of the notice and the line of the next one.
    let between := content.slice header.lineStop header.stop ++ nextAbove.drop header.stop
    have dropNotEmpty : nextAbove.drop header.stop ≠ [] := fun empty =>
      absurd (List.drop_eq_nil_iff.mp empty) (Nat.not_le_of_lt beyond)
    have betweenNotEmpty : between ≠ [] := List.append_ne_nil_of_right_ne_nil _ dropNotEmpty
    have fills : between.FillsLines := (isNext.around.fills.drop header.stop).append _ dropNotEmpty
    have dropped : content.drop header.stop =
        nextAbove.drop header.stop ++ ((nextBefore ++ nextLine) ++ nextBelow) := by
      rw [isNext.around.whole, List.drop_append_of_le_length isNext.start_le]
    have around : below.Around between (nextBefore ++ nextLine) nextBelow := by
      refine ⟨?_, fills, isNext.around.isOneLine, isNext.around.closes⟩
      rw [belowWhole, dropped]
      simp only [between, List.append_assoc]
    have nextInText := isNext.inText
    have nextForward : next.lineStop ≤ next.stop :=
      Nat.le_trans nextInText.headStop_in_line.1 nextInText.headStop_le_stop
    have closes : Text.ClosesLine (Linter.splice content next.lineStop (relines rest)) := by
      refine closesLine_splice (isNext.drop_lineStop.symm ▸ isNext.around.closes)
        fun replacement isFirst => ?_
      obtain ⟨after, inside⟩ := restSearched.relines_beyond ends replacement isFirst
      exact ⟨Nat.lt_of_le_of_lt nextForward after, inside⟩
    have changedAround : changedBelow.Around between (nextBefore ++ changed)
        (Linter.splice content next.lineStop (relines rest)) := by
      refine ⟨?_, fills, ?_, closes⟩
      · rw [changedWhole, splice_relines_cons, isNext.slice_start]
        simp only [between, List.append_assoc]
      · exact Text.OneLine.append (fun unit member =>
          isNext.around.isOneLine unit (List.mem_append_left _ member)) admitsNext.isOneLine
    have leaderFree : Notice.Free (leaderOf before) :=
      isFound.before_free.of_infix (isPrefix_leaderOf before).isInfix
    have breaks : licenseTag <:+: nextBefore → nextLine.BreaksWithin → changed.BreaksWithin := by
      intro hasTag
      have admitsBreaks := admitsNext.breaks
      rw [isNext.lineText, isNext.leader_eq] at admitsBreaks
      exact admitsBreaks (licenseTag_infix_leaderOf nextBefore hasTag)
    have noLicense := isFound.noLicense around (Notice.ne_nil_of_read? _ _ isNext.reads)
      betweenNotEmpty
      (by
        have width := Text.length_slice content header.lineStop header.stop stopInText
        simp only [between, List.length_append, List.length_drop, width]
        omega)
    obtain ⟨sameBreak, sameBeneath⟩ :=
      beneath_changed around changedAround betweenNotEmpty leaderFree
      isNext.reads changedReads breaks noLicense
    have belowCloses := isFound.around.closes
    rw [around.whole] at belowCloses
    exact ⟨changedAround.whole ▸ belowCloses.of_append betweenNotEmpty, sameBreak, sameBeneath⟩

/-- Headers are found again when the lines of their notices are changed: as many of them, with the
same pieces between them and with the changed lines. What stands above the search may change too. -/
theorem Searched.relined {content : Text} {start : Nat} (pairs : List (Header × Text))
    (searched : Searched content start (pairs.map Prod.fst)) (begins : BeginsSearch content start)
    (admits : ∀ pair ∈ pairs, Admits content pair.1 pair.2) (above : Text)
    (atStart : start = 0 → above = []) (changedContent : Text)
    (changedWhole : changedContent = above ++ Linter.splice content start (relines pairs)) :
    ∃ headers, Searched changedContent above.length headers ∧
      piecesFrom changedContent above.length headers =
        piecesFrom content start (pairs.map Prod.fst) ∧
      headers.map (fun header => header.lineSpan.text changedContent) = pairs.map Prod.snd := by
  induction pairs generalizing start above with
  | nil =>
    cases searched with
    | done _ isLast =>
      have dropped : changedContent.drop above.length = content.drop start := by
        rw [changedWhole, List.drop_left]
        rfl
      refine ⟨[], .done _ ((next?_eq_none_iff _ _).mpr ?_), ?_, rfl⟩
      · rw [dropped]
        exact (next?_eq_none_iff _ _).mp isLast
      · rw [piecesFrom, dropped]
        rfl
  | cons pair rest inductionHypothesis =>
    obtain ⟨header, changed⟩ := pair
    obtain ⟨admitsFirst, admitsRest⟩ := List.forall_mem_cons.mp admits
    obtain ⟨⟨ownAbove, before, line, below, isFound⟩, others, ends⟩ := searched.exists_found begins
    dsimp only at admitsFirst isFound others ends
    have inText := isFound.inText
    have forward : header.lineStop ≤ header.stop :=
      Nat.le_trans inText.headStop_in_line.1 inText.headStop_le_stop
    have stopBounds := stop_bounds content start header isFound.next?_eq
    obtain ⟨notice, reads⟩ := admitsFirst.reads
    let beneathText := content.slice header.lineStop header.stop
    let changedBelow := beneathText ++ Linter.splice content header.stop (relines rest)
    obtain ⟨closes, sameBreak, sameBeneath⟩ :=
      Searched.below_relined isFound rest others admitsRest (show changedBelow = _ from rfl)
    have tail : Linter.splice content header.lineStop (relines rest) = changedBelow :=
      Linter.splice_of_le content _ _ _ forward fun replacement isFirst =>
        Nat.le_of_lt (others.relines_beyond ends replacement isFirst).1
    have around : changedContent.Around (above ++ ownAbove.drop start) (before ++ changed)
        changedBelow := by
      refine ⟨?_, ?_, ?_, closes⟩
      · rw [changedWhole, splice_relines_cons, tail, isFound.slice_start]
        simp only [List.append_assoc]
      · rcases begins with rfl | beginsBlank
        · rw [atStart rfl, List.drop_zero]
          exact isFound.around.fills
        · have onLater := beginsBlank.length_lt isFound.around
            (Notice.head?_of_read? _ _ isFound.reads) (by decide)
            (Nat.le_trans isFound.start_le (Nat.le_add_right _ _))
          exact (isFound.around.fills.drop start).append _ fun empty =>
            absurd (List.drop_eq_nil_iff.mp empty) (Nat.not_le_of_lt onLater)
      · exact Text.OneLine.append (fun unit member =>
          isFound.around.isOneLine unit (List.mem_append_left _ member)) admitsFirst.isOneLine
    have free : Notice.Free (((above ++ ownAbove.drop start) ++ before).drop above.length) := by
      rw [List.append_assoc, List.drop_left, ← List.drop_append_of_le_length isFound.start_le]
      exact isFound.free
    obtain ⟨changedHeader, isChanged, stops⟩ := isFound.reline around
      (by rw [List.length_append]; exact Nat.le_add_right _ _) free reads sameBreak sameBeneath
    have width := Text.length_slice content header.lineStop header.stop stopBounds.2
    have stop : changedHeader.stop =
        ((above ++ ownAbove.drop start) ++ ((before ++ changed) ++ beneathText)).length := by
      have lineStop := isChanged.lineStop_eq
      simp only [List.length_append, beneathText, width] at lineStop ⊢
      omega
    obtain ⟨headers, restSearched, pieces, lines⟩ :=
      inductionHypothesis others (Or.inr ends) admitsRest
      ((above ++ ownAbove.drop start) ++ ((before ++ changed) ++ beneathText))
      (fun atZero => absurd atZero (by omega)) (by
        rw [around.whole]
        simp only [changedBelow, List.append_assoc])
    rw [← stop] at restSearched pieces
    refine ⟨changedHeader :: headers, .found _ _ _ isChanged.next?_eq
      (stop_bounds _ _ _ isChanged.next?_eq).1 restSearched, ?_, ?_⟩
    · rw [piecesFrom, List.map_cons, piecesFrom, pieces]
      congr 1
      rw [isChanged.slice_leader, isFound.slice_leader, List.drop_left]
    · rw [List.map_cons, lines, isChanged.lineText]
      rfl

/-- The headers of a text in which the lines of notices are changed. -/
theorem all_relined (content : Text) (pairs : List (Header × Text))
    (finds : all (Lines.ofText content) = .ok (pairs.map Prod.fst))
    (admits : ∀ pair ∈ pairs, Admits content pair.1 pair.2) :
    ∃ headers, all (Lines.ofText (Linter.splice content 0 (relines pairs))) = .ok headers ∧
      pieces (Linter.splice content 0 (relines pairs)) headers =
        pieces content (pairs.map Prod.fst) ∧
      headers.map (fun header => header.lineSpan.text (Linter.splice content 0 (relines pairs))) =
        pairs.map Prod.snd := by
  obtain ⟨headers, searched, samePieces, lines⟩ := Searched.relined pairs
    ((all_eq_ok_iff _ _).mp finds) (Or.inl rfl) admits [] (fun _ => rfl) _ rfl
  exact ⟨headers, (all_eq_ok_iff _ _).mpr searched, samePieces, lines⟩

end Header

end SourceLint.Copyright
