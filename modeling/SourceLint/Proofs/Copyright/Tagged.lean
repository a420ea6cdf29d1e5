/-
This file says how a header with both tags is written: the comment leader, the tag and the notice on
one line, and on the next line the leader, the other tag and the identifier with nothing but white
space behind it. A text that begins with a header so written has the tags and the identifier in it,
unless the table of license texts keeps the identifier for itself; and what stands below a notice
with an identifier is so written.
-/
import SourceLint.Proofs.Copyright.LongForm

namespace SourceLint

/-! ### Ends of lines -/

namespace Text

/-- What is left of a line with nothing but white space is on that line. -/
theorem EndsLine.exists_blanks {text : Text} (ends : EndsLine text) :
    ∃ blanks below : Text, text = blanks ++ below ∧ (∀ unit ∈ blanks, unit.isBlank = true) ∧
      blanks.OneLine ∧ below.ClosesLine := by
  obtain ⟨blanks, below, rfl, areBlank, closes⟩ := ends
  obtain ⟨line, rest, rfl, isOneLine, restCloses⟩ := Text.exists_firstLine blanks
  refine ⟨line, rest ++ below, List.append_assoc _ _ _, fun unit member =>
    areBlank unit (List.mem_append_left _ member), isOneLine, ?_⟩
  cases rest with
  | nil => exact closes
  | cons unit others => exact fun first isFirst => restCloses first isFirst

/-- Whether only white space is left of a line is seen from the rest of the line. -/
theorem EndsLine.of_fillsLines {left right other : Text} (ends : EndsLine (left ++ right))
    (fills : left.FillsLines) (notEmpty : left ≠ []) : EndsLine (left ++ other) := by
  obtain ⟨blanks, below, whole, areBlank, isOneLine, closes⟩ := ends.exists_blanks
  rcases List.append_eq_append_iff.mp whole with ⟨more, blanksWhole, _⟩ | ⟨more, rfl, belowWhole⟩
  · -- The line would go on behind a line ending.
    obtain ⟨last, isLast⟩ := Option.ne_none_iff_exists'.mp
      (fun none => notEmpty (List.getLast?_eq_none_iff.mp none))
    have inBlanks : last ∈ blanks :=
      blanksWhole ▸ List.mem_append_left _ (List.mem_of_getLast? isLast)
    exact absurd (fills last isLast) (not_or.mpr (isOneLine last inBlanks))
  · cases more with
    | nil =>
      obtain ⟨last, isLast⟩ := Option.ne_none_iff_exists'.mp
        (fun none => notEmpty (List.getLast?_eq_none_iff.mp none))
      rw [List.append_nil] at isLast
      exact absurd (fills last (by rw [List.append_nil]; exact isLast))
        (not_or.mpr (isOneLine last (List.mem_of_getLast? isLast)))
    | cons unit others =>
      exact ⟨blanks, unit :: others ++ other, List.append_assoc _ _ _, areBlank,
        (belowWhole ▸ closes).of_append (List.cons_ne_nil _ _)⟩

end Text

/-- The line below a line ending. -/
theorem physicalLines_newline (newline : Newline) (line below : Text) (notEmpty : line ≠ [])
    (isOneLine : line.OneLine) (closes : below.ClosesLine) :
    physicalLines (newline.text ++ (line ++ below)) =
      ([], some newline) :: (line, lineEnding below) :: partsBelow below := by
  have fills : newline.text.FillsLines := by
    cases newline <;> rintro unit ⟨⟩ <;> decide
  have around : Text.Around (newline.text ++ (line ++ below)) newline.text line below :=
    ⟨rfl, fills, isOneLine, closes⟩
  have above : partsAbove newline.text = [([], some newline)] := by cases newline <;> decide
  rw [around.physicalLines_eq notEmpty, above]
  rfl

namespace Copyright

/-! ### The line with the identifier -/

/-- What stands between the line of a notice and the license identifier below. -/
def beforeIdentifier (newline : Newline) (leader : Text) (gap : Nat) : Text :=
  newline.text ++ (continuationLeader leader ++ (licenseTag ++ Text.spaces gap))

theorem closesLine_beforeIdentifier (newline : Newline) (leader : Text) (gap : Nat) (rest : Text) :
    Text.ClosesLine (beforeIdentifier newline leader gap ++ rest) := by
  rw [beforeIdentifier]
  cases newline <;> rintro unit ⟨⟩ <;> decide

theorem isOneLine_continuationLeader {leader : Text} (isOneLine : leader.OneLine) :
    (continuationLeader leader).OneLine := by
  rcases continuationLeader_cases leader with same | ⟨before, after, rfl, changed⟩
  · rwa [same]
  · rw [changed]
    obtain ⟨beforeOneLine, afterOneLine⟩ := List.forall_mem_append.mp isOneLine
    obtain ⟨_, starOneLine⟩ := List.forall_mem_cons.mp afterOneLine
    exact Text.OneLine.append beforeOneLine (List.forall_mem_cons.mpr ⟨by decide, starOneLine⟩)

theorem isOneLine_spaces (count : Nat) : (Text.spaces count).OneLine := by
  intro unit member
  rw [List.eq_of_mem_replicate member]
  decide

namespace Header

/-- What is read below a notice when an identifier is written there: the identifier in its place,
and then the lines below it. -/
theorem linesBelow_beforeIdentifier (stop : Nat) (newline : Newline) {leader : Text}
    (leaderOneLine : leader.OneLine) (gap : Nat) {identifier behind : Text}
    (isIdentifier : IsIdentifier identifier) (ends : behind.EndsLine) :
    ∃ next rest license,
      linesBelow stop (beforeIdentifier newline leader gap ++ (identifier ++ behind)) =
          next :: rest ∧
        licenseOnLine? (continuationLeader leader) next = some license ∧
        license.identifier = identifier ∧
        license.textSpan.start = stop + (beforeIdentifier newline leader gap).length ∧
        rest.map Line.text = (Lines.ofText behind).all.tail.map Line.text := by
  obtain ⟨blanks, below, rfl, areBlank, blanksOneLine, closes⟩ := ends.exists_blanks
  let line := continuationLeader leader ++
    (licenseTag ++ (Text.spaces gap ++ (identifier ++ blanks)))
  have notEmpty : line ≠ [] := List.append_ne_nil_of_right_ne_nil _ (by
    rw [licenseTag]
    exact List.append_ne_nil_of_left_ne_nil (by decide) _)
  have isOneLine : line.OneLine := (isOneLine_continuationLeader leaderOneLine).append
    (Text.OneLine.append (by decide) ((isOneLine_spaces gap).append
      (isIdentifier.isOneLine.append blanksOneLine)))
  have whole : beforeIdentifier newline leader gap ++ (identifier ++ (blanks ++ below)) =
      newline.text ++ (line ++ below) := by
    simp only [beforeIdentifier, line, List.append_assoc]
  have parts := physicalLines_newline newline line below notEmpty isOneLine closes
  rw [whole, linesBelow, partsBelow, lineBreak, lineEnding, parts, List.tail_cons, placeLines]
  refine ⟨_, _, _, rfl, licenseOnLine?_append _ _ _ _ _ _ isIdentifier areBlank, rfl, ?_, ?_⟩
  · simp only [LicenseLine.textSpan, beforeIdentifier, List.head?_cons, Option.bind_some,
      Option.map_some, Option.getD_some, List.length_append, Text.spaces, List.length_replicate]
    omega
  · rw [map_text_placeLines, Lines.ofText, physicalLines_line blanks below blanksOneLine closes,
      placeLines, List.tail_cons, map_text_placeLines]

/-- A license that has no entry of its own kind does not stop the search for its text. -/
theorem exists_longFormBelow (identifier leader : Text) (below : List Line)
    (notReserved : identifier ∉ LicenseEntry.reservedWords) :
    ∃ longForm, longFormBelow identifier leader below = .ok longForm := by
  rw [longFormBelow.eq_def]
  split
  · exact ⟨_, rfl⟩
  · exact ⟨_, rfl⟩
  case h_3 reserved =>
    rw [LicenseEntry.ofIdentifier] at reserved
    split at reserved
    · cases reserved
    · rw [if_neg (fun has => notReserved (List.contains_iff_mem.mp has))] at reserved
      cases reserved
  · exact ⟨_, rfl⟩

/-- What stands below a notice with a license identifier. -/
theorem Found.exists_beforeIdentifier {content above before line below : Text} {start : Nat}
    {header : Header} (isFound : Found content start header above before line below)
    {license : LicenseLine} (isLicense : header.license = some license) :
    ∃ (newline : Newline) (gap : Nat) (behind : Text),
      below = beforeIdentifier newline header.leader gap ++ (license.identifier ++ behind) ∧
        license.textSpan.start =
          header.lineStop + (beforeIdentifier newline header.leader gap).length := by
  obtain ⟨found, isBeneath, made⟩ := isFound.made
  rw [← isFound.lineStop_eq, linesBelow] at isBeneath
  have same : found.license = some license := by
    rw [← isLicense, made]
    rfl
  rcases beneath_eq_ok _ _ _ isBeneath with
    ⟨none, _, _⟩ | ⟨other, next, rest, isSome, lines, reads, _⟩
  · cases none.symm.trans same
  · cases isSome.symm.trans same
    rw [← isFound.leader_eq] at reads
    obtain ⟨start, _, gap, blanks, text, tagLength, _⟩ := exists_of_licenseOnLine? _ _ _ reads
    have closed := isFound.around.closes.eq_append
    have parts := physicalLines_of_closesLine below isFound.around.closes
    cases isFirst : partsBelow below with
    | nil =>
      rw [isFirst] at lines
      cases lines
    | cons part more =>
      rw [isFirst, placeLines] at lines
      cases lines
      have endings := physicalLines_pairwise below
      rw [parts, isFirst] at endings
      obtain ⟨newline, ending⟩ := Option.isSome_iff_exists.mp
        ((List.pairwise_cons.mp endings).1 part List.mem_cons_self)
      have isBreak : lineBreak below = newline.text := by
        rw [lineBreak, show lineEnding below = some newline from ending]
        rfl
      rw [isFirst, isBreak, List.flatMap_cons, partText, show part.1 = _ from text] at closed
      refine ⟨newline, gap, blanks ++ ((part.2.map Newline.text).getD [] ++ more.flatMap partText),
        ?_, ?_⟩
      · rw [closed, beforeIdentifier]
        simp only [List.append_assoc]
      · rw [LicenseLine.textSpan, start, tagLength, isBreak, beforeIdentifier]
        simp only [List.length_append, Text.spaces, List.length_replicate]
        omega

/-- What a header has when an identifier is written below its notice: the identifier, where its head
ends, and behind it the long text if that stands there. -/
theorem Found.reads_beforeIdentifier {content above before line leader : Text} {start : Nat}
    {header : Header} {newline : Newline} {gap : Nat} {identifier behind : Text}
    (isFound : Found content start header above before line
      (beforeIdentifier newline leader gap ++ (identifier ++ behind)))
    (isLeader : leaderOf before = leader) (leaderOneLine : leader.OneLine)
    (isIdentifier : IsIdentifier identifier) (ends : behind.EndsLine) :
    (∃ license, header.license = some license ∧ license.identifier = identifier) ∧
      (∃ head, content = head ++ behind ∧ head.length = header.headStop) ∧
      (header.longForm.isSome = true ↔ identifier = Text.ofString "Apache-2.0" ∧
        ShowsLicense (continuationLeader (continuationLeader leader))
          ((Lines.ofText behind).all.tail.map Line.text)) := by
  obtain ⟨found, isBeneath, made⟩ := isFound.made
  obtain ⟨next, rest, license, lines, reads, same, place, texts⟩ :=
    linesBelow_beforeIdentifier (above.length + before.length + line.length) newline leaderOneLine
      gap isIdentifier ends
  rw [isLeader, lines, beneath, List.head?_cons, Option.bind_some, reads] at isBeneath
  obtain ⟨longForm, finds, rfl⟩ := exists_of_map_eq_ok _ _ _ isBeneath
  have isLicense : header.license = some license := by rw [made]; rfl
  have isLongForm : header.longForm = longForm := by rw [made]; rfl
  refine ⟨⟨license, isLicense, same⟩, ⟨above ++ ((before ++ line) ++
    (beforeIdentifier newline leader gap ++ identifier)), ?_, ?_⟩, ?_⟩
  · rw [isFound.around.whole]
    simp only [List.append_assoc]
  · have stop : license.textSpan.stop = license.textSpan.start + license.identifier.length := rfl
    rw [headStop, isLicense]
    simp only [stop, place, same, List.length_append]
    omega
  · rw [isLongForm, isSome_longFormBelow finds, same, List.tail_cons, texts]

/-- The identifier of a header is what stands in its place. -/
theorem Found.textSpan_text {content above before line below : Text} {start : Nat} {header : Header}
    (isFound : Found content start header above before line below) {license : LicenseLine}
    (isLicense : header.license = some license) :
    license.textSpan.text content = license.identifier := by
  obtain ⟨newline, gap, behind, belowWhole, place⟩ := isFound.exists_beforeIdentifier isLicense
  have whole : content =
      (above ++ ((before ++ line) ++ beforeIdentifier newline header.leader gap)) ++
        (license.identifier ++ behind) := by
    rw [isFound.around.whole, belowWhole]
    simp only [List.append_assoc]
  have start : license.textSpan.start =
      (above ++ ((before ++ line) ++ beforeIdentifier newline header.leader gap)).length := by
    rw [place, isFound.lineStop_eq]
    simp only [List.length_append]
    omega
  have stop : license.textSpan.stop = license.textSpan.start + license.identifier.length := rfl
  rw [Span.text, stop, start, whole, Text.slice_append]

theorem Found.isOneLine_leader {content above before line below : Text} {start : Nat}
    {header : Header}
    (isFound : Found content start header above before line below) : header.leader.OneLine := by
  rw [isFound.leader_eq]
  exact fun unit member => isFound.around.isOneLine unit
    (List.mem_append_left _ ((isPrefix_leaderOf before).subset member))

/-- Above the first notice and before it on its line there is none. -/
theorem Found.free_leader {content above before line below : Text} {header : Header}
    (isFound : Found content 0 header above before line below) :
    Notice.Free (above ++ header.leader) := by
  rw [isFound.leader_eq]
  obtain ⟨rest, whole⟩ := isPrefix_leaderOf before
  refine isFound.free.of_infix ⟨[], rest, ?_⟩
  rw [List.nil_append, List.append_assoc, whole, List.drop_zero]

/-! ### The whole header -/

/-- The tag of a notice does not make a notice with what stands before it. -/
theorem free_append_tag {text : Text} (free : Notice.Free text) (count : Nat) :
    Notice.Free (text ++ (noticeTag ++ Text.spaces count)) := by
  refine free.append_noEnd fun nameEnd isEnd => ⟨fun isPart => ?_, fun unit isFirst => ?_⟩
  · have unlike : ∀ nameEnd ∈ Notice.nameEnds,
        ∃ unit ∈ nameEnd, unit ∉ noticeTag ∧ unit ≠ 0x20 := by decide
    obtain ⟨unit, member, notInTag, notSpace⟩ := unlike nameEnd isEnd
    rcases List.mem_append.mp (isPart.subset member) with inTag | inSpaces
    · exact notInTag inTag
    · exact notSpace (List.eq_of_mem_replicate inSpaces)
  · have isS : unit = 0x53 := (Option.some.inj isFirst).symm
    have notInEnds : ∀ nameEnd ∈ Notice.nameEnds, (0x53 : CodeUnit) ∉ nameEnd := by decide
    exact isS ▸ notInEnds nameEnd isEnd

/-- The first header of a text that is written with both tags has them. -/
theorem exists_found_of_tags {content above leader line identifier behind : Text} {count gap : Nat}
    {newline : Newline}
    (whole : content = (above ++ (leader ++ (noticeTag ++ Text.spaces count))) ++
      (line ++ (beforeIdentifier newline leader gap ++ (identifier ++ behind))))
    (fills : above.FillsLines) (leaderOneLine : leader.OneLine)
    (free : Notice.Free (above ++ leader))
    (lineOneLine : line.OneLine) (reads : ∃ notice, Notice.read? line = some notice)
    (isIdentifier : IsIdentifier identifier)
    (notReserved : identifier ∉ LicenseEntry.reservedWords) (ends : behind.EndsLine) :
    ∃ header, Found content 0 header above (leader ++ (noticeTag ++ Text.spaces count)) line
        (beforeIdentifier newline leader gap ++ (identifier ++ behind)) ∧
      ∃ license, header.license = some license ∧ license.identifier = identifier := by
  obtain ⟨notice, reads⟩ := reads
  have around : content.Around above ((leader ++ (noticeTag ++ Text.spaces count)) ++ line)
      (beforeIdentifier newline leader gap ++ (identifier ++ behind)) := by
    refine ⟨?_, fills, (leaderOneLine.append
      (Text.OneLine.append (by decide) (isOneLine_spaces count))).append lineOneLine,
      closesLine_beforeIdentifier newline leader gap _⟩
    rw [whole]
    simp only [List.append_assoc]
  have tagFree := free_append_tag free count
  rw [List.append_assoc] at tagFree
  obtain ⟨next, rest, license, below, readsLicense, same, _, _⟩ := linesBelow_beforeIdentifier
    (above.length + (leader ++ (noticeTag ++ Text.spaces count)).length + line.length) newline
    leaderOneLine gap isIdentifier ends
  obtain ⟨longForm, finds⟩ := exists_longFormBelow license.identifier
    (continuationLeader (continuationLeader leader)) rest (same ▸ notReserved)
  have made : beneath (leaderOf (leader ++ (noticeTag ++ Text.spaces count)))
      (linesBelow (above.length + (leader ++ (noticeTag ++ Text.spaces count)).length + line.length)
        (beforeIdentifier newline leader gap ++ (identifier ++ behind))) =
        .ok ⟨some license, longForm⟩ := by
    rw [leaderOf_append, below, beneath, List.head?_cons, Option.bind_some, readsLicense]
    dsimp only
    rw [List.tail_cons, finds]
    rfl
  exact ⟨make above.length _ line notice ⟨some license, longForm⟩,
    ⟨around, Nat.zero_le _, tagFree, reads, _, made, rfl⟩, license, rfl, same⟩

end Header

end Copyright

end SourceLint
