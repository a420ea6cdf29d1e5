/-
This file says which header a text has at a place, in terms of the text: what stands above the line
of a notice, before the notice on its line, from the notice on, and below. Only what stands before
the notice, the notice and the lines below make the header, and only the start of the line moves it.
-/
import SourceLint.Proofs.Copyright.Beneath
import SourceLint.Proofs.Copyright.Header

namespace SourceLint

namespace Text

/-- A part of a text from any position before a line up to any position on it. -/
theorem Around.slice_eq {content above before line below : Text}
    (around : content.Around above (before ++ line) below) (start : Nat)
    (forward : start ≤ above.length + before.length) :
    content.slice start (above.length + before.length) = (above ++ before).drop start := by
  have whole : content = (above ++ before) ++ (line ++ below) := by
    rw [around.whole, List.append_assoc, List.append_assoc]
  rw [← List.length_append] at forward ⊢
  rw [slice, whole, List.drop_append_of_le_length forward, List.take_left' (List.length_drop)]

/-- What is left of a line is white space. -/
def EndsLine (text : Text) : Prop :=
  ∃ blanks below : Text, text = blanks ++ below ∧ (∀ unit ∈ blanks, unit.isBlank = true) ∧
    below.ClosesLine

/-- If what is left of a line is white space, any other unit is on a later line. -/
theorem EndsLine.length_lt {content above before line below : Text} {start : Nat} {unit : CodeUnit}
    (ends : EndsLine (content.drop start))
    (around : content.Around above (before ++ line) below) (first : line.head? = some unit)
    (notBlank : unit.isBlank = false) (after : start ≤ above.length + before.length) :
    start < above.length := by
  by_contra notAbove
  obtain ⟨blanks, rest, split, areBlank, closes⟩ := ends
  obtain ⟨others, rfl⟩ : ∃ others, line = unit :: others := by
    cases line with
    | nil => cases first
    | cons head tail =>
      cases first
      exact ⟨tail, rfl⟩
  have whole : before.drop (start - above.length) ++ unit :: others ++ below = blanks ++ rest := by
    rw [← split, around.whole, List.drop_append,
      List.drop_eq_nil_iff.mpr (Nat.le_of_not_lt notAbove), List.nil_append,
      List.append_assoc before, List.drop_append_of_le_length (by omega),
      ← List.append_assoc]
  have isOneLine : Text.OneLine (before.drop (start - above.length) ++ unit :: others) :=
    fun other member => around.isOneLine other
      (((List.drop_sublist _ before).append (List.Sublist.refl _)).subset member)
  have notAll : ∀ more, blanks = before.drop (start - above.length) ++ unit :: others ++ more →
      False := by
    rintro more rfl
    have isBlank := areBlank unit (by simp)
    rw [notBlank] at isBlank
    cases isBlank
  rcases List.append_eq_append_iff.mp whole with ⟨more, blanksWhole, _⟩ |
    ⟨more, lineWhole, restWhole⟩
  · exact notAll more blanksWhole
  · cases more with
    | nil => exact notAll [] (by rw [List.append_nil, lineWhole, List.append_nil])
    | cons other others =>
      refine absurd (closes other (by rw [restWhole]; rfl)) (not_or.mpr (isOneLine other ?_))
      rw [lineWhole]
      exact List.mem_append_right _ List.mem_cons_self

end Text

namespace Copyright

/-! ### Notices on lines -/

theorem Notice.read?_append_of_read? (text rest : Text) (notice : Notice)
    (reads : read? text = some notice) : read? (text ++ rest) = some notice := by
  obtain ⟨written, behind, rfl, isWritten⟩ := exists_written_of_read? _ _ reads
  rw [List.append_assoc]
  exact isWritten.read?_append _

/-- What stands below a line has no part in a notice on the line. -/
theorem Notice.read?_of_closesLine (line below : Text) (closes : below.ClosesLine) (notice : Notice)
    (reads : read? (line ++ below) = some notice) : read? line = some notice := by
  obtain ⟨written, behind, whole, isWritten⟩ := exists_written_of_read? _ _ reads
  rcases List.append_eq_append_iff.mp whole with ⟨more, writtenWhole, belowWhole⟩ | ⟨more, rfl, _⟩
  · cases more with
    | nil =>
      rw [List.append_nil] at writtenWhole
      have own := isWritten.read?_append []
      rwa [List.append_nil, writtenWhole] at own
    | cons unit others =>
      refine absurd (closes unit (by rw [belowWhole]; rfl))
        (not_or.mpr (isWritten.isOneLine unit ?_))
      rw [writtenWhole]
      exact List.mem_append_right _ List.mem_cons_self
  · exact isWritten.read?_append _

namespace Header

/-! ### The tag -/

theorem reverse_tag_append (leader : Text) (count : Nat) :
    (Notice.skipSpaces (leader ++ (noticeTag ++ Text.spaces count)).reverse).reverse =
      leader ++ noticeTag := by
  have reversed : (leader ++ (noticeTag ++ Text.spaces count)).reverse =
      Text.spaces count ++ (leader ++ noticeTag).reverse := by
    rw [← List.append_assoc, List.reverse_append, Text.spaces, List.reverse_replicate]
  have lastUnit : noticeTag.reverse.head? = some 0x3A := by decide
  rw [reversed, Notice.skipSpaces_spaces_append, List.reverse_reverse]
  rw [List.reverse_append, List.head?_append, lastUnit, Option.some_or]
  decide

theorem tagLength?_append (leader : Text) (count : Nat) :
    tagLength? (leader ++ (noticeTag ++ Text.spaces count)) = some (noticeTag.length + count) := by
  have ends : Text.endsWith (leader ++ noticeTag) noticeTag = true :=
    List.isSuffixOf_iff_suffix.mpr (List.suffix_append _ _)
  rw [tagLength?, reverse_tag_append, if_pos ends]
  simp only [List.length_append, Text.spaces, List.length_replicate]
  congr 2
  omega

theorem exists_of_tagLength? (before : Text) (length : Nat)
    (reads : tagLength? before = some length) :
    ∃ leader count, before = leader ++ (noticeTag ++ Text.spaces count) ∧
      length = noticeTag.length + count := by
  have inside := reads
  rw [tagLength?] at reads
  split at reads
  case isFalse => cases reads
  case isTrue ends =>
    obtain ⟨leader, beforeSpaces⟩ := List.isSuffixOf_iff_suffix.mp ends
    obtain ⟨count, reversed⟩ := Notice.exists_spaces before.reverse
    have whole : before = leader ++ (noticeTag ++ Text.spaces count) := by
      have again := congrArg List.reverse reversed
      rw [List.reverse_reverse, List.reverse_append, ← beforeSpaces, Text.spaces,
        List.reverse_replicate, List.append_assoc] at again
      exact again
    refine ⟨leader, count, whole, ?_⟩
    rw [whole, tagLength?_append] at inside
    exact (Option.some.inj inside).symm

/-- What stands before a notice on its line, but for the tag. -/
def leaderOf (before : Text) : Text := before.take (before.length - (tagLength? before).getD 0)

theorem getD_tagLength?_le (before : Text) : (tagLength? before).getD 0 ≤ before.length := by
  cases tag_eq : tagLength? before with
  | none => exact Nat.zero_le _
  | some length => exact tagLength?_le before length tag_eq

/-- What is left of what stands before a notice is the tag, if there is one. -/
theorem length_leaderOf (before : Text) :
    (leaderOf before).length = before.length - (tagLength? before).getD 0 :=
  List.length_take_of_le (Nat.sub_le _ _)

theorem leaderOf_append (leader : Text) (count : Nat) :
    leaderOf (leader ++ (noticeTag ++ Text.spaces count)) = leader := by
  have length : (leader ++ (noticeTag ++ Text.spaces count)).length - (noticeTag.length + count) =
      leader.length := by
    simp only [List.length_append, Text.spaces, List.length_replicate]
    omega
  rw [leaderOf, tagLength?_append, Option.getD_some, length, List.take_left]

/-- The tag of a license identifier is no part of the tag of a notice. -/
theorem licenseTag_infix_leaderOf (before : Text) (isPart : licenseTag <:+: before) :
    licenseTag <:+: leaderOf before := by
  cases reads : tagLength? before with
  | none =>
    rw [leaderOf, reads, Option.getD_none, Nat.sub_zero, List.take_length]
    exact isPart
  | some length =>
    obtain ⟨leader, count, rfl, _⟩ := exists_of_tagLength? before length reads
    rw [leaderOf_append]
    rcases Notice.infix_append_cases isPart with inLeader | inTag |
      ⟨first, second, whole, firstNotEmpty, secondNotEmpty, _, ⟨rest, tagWhole⟩⟩
    · exact inLeader
    · have member : (0x4C : CodeUnit) ∈ noticeTag ++ Text.spaces count :=
        inTag.subset (by decide)
      rcases List.mem_append.mp member with inTag | inSpaces
      · exact absurd inTag (by decide)
      · exact absurd (List.eq_of_mem_replicate inSpaces) (by decide)
    -- The part in the notice tag would begin as that does, but only the first unit is like that.
    · obtain ⟨unit, others, rfl⟩ := List.exists_cons_of_ne_nil secondNotEmpty
      have isS : unit = 0x53 := congrArg (List.headD · 0) tagWhole
      obtain ⟨head, tail, rfl⟩ := List.exists_cons_of_ne_nil firstNotEmpty
      have later : unit ∈ licenseTag.tail := by
        rw [whole]
        exact List.mem_append_right _ List.mem_cons_self
      rw [isS] at later
      exact absurd later (by decide)

theorem isPrefix_leaderOf (before : Text) : leaderOf before <+: before := List.take_prefix _ _

/-! ### The header -/

/-- The lines below a line that stops at a position. -/
def linesBelow (stop : Nat) (below : Text) : List Line :=
  placeLines (stop + (lineBreak below).length) (partsBelow below)

/-- What stands behind others on a line is on the line of some number; the lines with greater
numbers are those below. -/
theorem exists_number {content above before line below : Text}
    (around : content.Around above (before ++ line) below) (notEmpty : line ≠ []) :
    ∃ number, (Lines.ofText content).all[number]? =
        some ⟨above.length, before ++ line, lineEnding below⟩ ∧
      (Lines.ofText content).lineAt ((above.length + before.length : Nat) : Int) = .ok number ∧
      (Lines.ofText content).all.drop (number + 1) =
        linesBelow (above.length + before.length + line.length) below := by
  have all := around.all_eq (List.append_ne_nil_of_right_ne_nil before notEmpty)
  rw [List.length_append, ← Nat.add_assoc, ← linesBelow] at all
  generalize placeLines 0 (partsAbove above) = others at all
  have isLine : (Lines.ofText content).all[others.length]? =
      some ⟨above.length, before ++ line, lineEnding below⟩ := by
    rw [all, List.getElem?_append_right (Nat.le_refl _), Nat.sub_self]
    rfl
  refine ⟨others.length, isLine, Lines.lineAt_eq_ok content others.length _ isLine
    (above.length + before.length) (Nat.le_add_right _ _) ?_, ?_⟩
  · rw [Line.stop, List.length_append]
    dsimp only
    omega
  · rw [all, List.drop_append, List.drop_eq_nil_of_le (Nat.le_succ _), Nat.add_sub_cancel_left]
    rfl

/-- The header of a notice: where its line begins, what stands before it, its line from the notice
on, and what is beneath. -/
def make (lineStart : Nat) (before line : Text) (notice : Notice) (found : Beneath) : Header where
  noticeStart := lineStart + before.length
  notice := notice
  lineStop := lineStart + before.length + line.length
  tagStart := (tagLength? before).map fun length => lineStart + before.length - length
  leader := leaderOf before
  license := found.license
  longForm := found.longForm

/-- A long text below the line of a notice is looked for behind what stands before the notice. -/
theorem findLongForm_on_line {content above text below : Text}
    (around : content.Around above text below) {number : Nat} {ending : Option Newline}
    (isLine : (Lines.ofText content).all[number]? = some ⟨above.length, text, ending⟩)
    (identifier leader rest : Text) (whole : text = leader ++ rest) :
    findLongForm (Lines.ofText content) identifier ((above.length + leader.length : Nat) : Int) =
      longFormBelow identifier (continuationLeader leader)
        ((Lines.ofText content).all.drop (number + 1)) := by
  have inLine : above.length + leader.length ≤ (⟨above.length, text, ending⟩ : Line).stop := by
    rw [Line.stop, whole, List.length_append]
    dsimp only
    omega
  have sliced : content.slice above.length (above.length + leader.length) = leader := by
    rw [around.whole, whole, List.append_assoc, Text.slice_append]
  rw [findLongForm_eq content identifier number _ _ isLine (Nat.le_add_right _ _) inLine, sliced]

/-- A long text below a license identifier is looked for behind the leader of that line. -/
theorem findLongForm_of_license (content : Text) {number : Nat} {line : Line}
    (isLine : (Lines.ofText content).all[number]? = some line) (identifier leader : Text)
    {license : LicenseLine} (reads : licenseOnLine? leader line = some license) :
    findLongForm (Lines.ofText content) identifier (license.start : Int) =
      longFormBelow identifier (continuationLeader leader)
        ((Lines.ofText content).all.drop (number + 1)) := by
  obtain ⟨start, _, count, blanks, lineWhole, _, _⟩ := exists_of_licenseOnLine? _ _ _ reads
  obtain ⟨above, below, whole, place, _⟩ :=
    Lines.exists_of_mem content line (List.mem_of_getElem? isLine)
  have inLine : license.start ≤ line.stop := by
    rw [Line.stop, lineWhole, List.length_append, start]
    omega
  have sliced : content.slice line.start license.start = leader := by
    rw [whole, lineWhole, start, ← place, List.append_assoc, Text.slice_append]
  rw [findLongForm_eq content identifier number _ _ isLine (by omega) inLine, sliced]

theorem ofNotice_eq {content above before line below : Text}
    (around : content.Around above (before ++ line) below) (notEmpty : line ≠ [])
    (notice : Notice) :
    ofNotice (Lines.ofText content) (above.length + before.length) notice =
      (beneath (leaderOf before)
        (linesBelow (above.length + before.length + line.length) below)).map
          (make above.length before line notice) := by
  obtain ⟨number, isLine, looked, rest⟩ := exists_number around notEmpty
  have sliced : content.slice above.length (above.length + before.length) = before := by
    rw [around.whole, List.append_assoc, Text.slice_append]
  have next : (Lines.ofText content).all[number + 1]? =
      (linesBelow (above.length + before.length + line.length) below).head? := by
    rw [← rest, List.head?_drop]
  have stop : (⟨above.length, before ++ line, lineEnding below⟩ : Line).stop =
      above.length + before.length + line.length := by
    rw [Line.stop, List.length_append, Nat.add_assoc]
  generalize linesBelow (above.length + before.length + line.length) below = behind at rest next ⊢
  have license : (behind.head?.bind fun next => licenseOnLine? (continuationLeader
      (before.take (before.length - (tagLength? before).getD 0))) next) =
        behind.head?.bind (licenseOnLine? (continuationLeader (leaderOf before))) := rfl
  rw [ofNotice, looked, beneath]
  simp only [bind, Except.bind, isLine, Option.getD_some, Lines.content_ofText, sliced, next,
    license, stop]
  cases reads : behind.head?.bind (licenseOnLine? (continuationLeader (leaderOf before))) with
  | none =>
    obtain ⟨tag, whole⟩ := isPrefix_leaderOf before
    have leaderStop : above.length + before.length - (tagLength? before).getD 0 =
        above.length + (leaderOf before).length := by
      rw [length_leaderOf, Nat.add_sub_assoc (getD_tagLength?_le before)]
    have finds := findLongForm_on_line around isLine defaultLicense (leaderOf before)
      (tag ++ line) (by rw [← List.append_assoc, whole])
    simp only [Option.map_none, Option.getD_none, leaderStop, finds, rest]
    cases longFormBelow defaultLicense (continuationLeader (leaderOf before)) behind <;> rfl
  | some license =>
    obtain ⟨first, isFirst, readsFirst⟩ := Option.bind_eq_some_iff.mp reads
    have finds := findLongForm_of_license content (next.trans isFirst) license.identifier
      _ readsFirst
    have restTail : (Lines.ofText content).all.drop (number + 1 + 1) = behind.tail := by
      rw [← rest, List.tail_drop]
    simp only [Option.map_some, Option.getD_some, finds, restTail]
    cases longFormBelow license.identifier
      (continuationLeader (continuationLeader (leaderOf before))) behind.tail <;> rfl

/-! ### The next header -/

/-- A header that is found from a position on, with the parts of the text: what stands above its
line, before its notice, from the notice on, and below. -/
structure Found (content : Text) (start : Nat) (header : Header)
    (above before line below : Text) : Prop where
  around : content.Around above (before ++ line) below
  start_le : start ≤ above.length
  free : Notice.Free ((above ++ before).drop start)
  reads : Notice.read? line = some header.notice
  made : ∃ found, beneath (leaderOf before)
    (linesBelow (above.length + before.length + line.length) below) = .ok found ∧
      header = make above.length before line header.notice found

theorem next?_eq {content above before line below : Text} {start : Nat} {notice : Notice}
    (around : content.Around above (before ++ line) below) (start_le : start ≤ above.length)
    (free : Notice.Free ((above ++ before).drop start)) (reads : Notice.read? line = some notice) :
    next? (Lines.ofText content) start =
      (beneath (leaderOf before)
        (linesBelow (above.length + before.length + line.length) below)).map fun found =>
          some (make above.length before line notice found) := by
  have notEmpty := Notice.ne_nil_of_read? _ _ reads
  have whole : content = above.take start ++ ((above ++ before).drop start ++ (line ++ below)) := by
    rw [List.drop_append_of_le_length start_le, List.append_assoc,
      ← List.append_assoc (above.take start),
      List.take_append_drop, around.whole, List.append_assoc]
  have finds := Notice.find?_append free (above.take start)
    (Notice.read?_append_of_read? line below notice reads)
  rw [← whole, List.length_take_of_le start_le] at finds
  have place : start + ((above ++ before).drop start).length = above.length + before.length := by
    rw [List.length_drop, List.length_append]
    omega
  rw [next?, Lines.content_ofText, finds, place]
  dsimp only
  rw [ofNotice_eq around notEmpty]
  cases beneath (leaderOf before) _ <;> rfl

theorem next?_eq_none_iff (content : Text) (start : Nat) :
    next? (Lines.ofText content) start = .ok none ↔ Notice.Free (content.drop start) := by
  rw [← Notice.find?_eq_none_iff, next?, Lines.content_ofText]
  cases Notice.find? content start with
  | none => exact ⟨fun _ => rfl, fun _ => rfl⟩
  | some found =>
    refine ⟨fun none => ?_, fun none => (Option.some_ne_none _ none).elim⟩
    obtain ⟨_, _, isNone⟩ := exists_of_map_eq_ok _ _ _ none
    cases isNone

/-- A header that is found has its parts in the text, if the search began with the text or at the
end of a line. -/
theorem exists_found (content : Text) (start : Nat) (header : Header)
    (ends : start = 0 ∨ Text.EndsLine (content.drop start))
    (isNext : next? (Lines.ofText content) start = .ok (some header)) :
    ∃ above before line below, Found content start header above before line below := by
  rw [next?, Lines.content_ofText] at isNext
  split at isNext
  · cases isNext
  case h_2 noticeStart notice finds =>
    obtain ⟨after, reads, free⟩ := Notice.free_of_find? _ _ _ _ finds
    have isC := Notice.head?_of_read? _ _ reads
    rw [List.head?_drop] at isC
    obtain ⟨above, before, line, below, around, rfl, first⟩ :=
      Text.exists_around content noticeStart 0x43 isC (by decide)
    have start_le : start ≤ above.length := by
      rcases ends with rfl | ends
      · exact Nat.zero_le _
      · exact Nat.le_of_lt (ends.length_lt around first (by decide) after)
    have notEmpty : line ≠ [] := by
      rintro rfl
      cases first
    obtain ⟨_, made, same⟩ := exists_of_map_eq_ok _ _ _ isNext
    cases same
    rw [ofNotice_eq around notEmpty] at made
    obtain ⟨found, isFound, rfl⟩ := exists_of_map_eq_ok _ _ _ made
    have whole : content = (above ++ before) ++ (line ++ below) := by
      rw [around.whole, List.append_assoc, List.append_assoc]
    have dropped : content.drop (above.length + before.length) = line ++ below := by
      rw [whole, ← List.length_append, List.drop_left]
    rw [dropped] at reads
    exact ⟨above, before, line, below, around, start_le, around.slice_eq start after ▸ free,
      Notice.read?_of_closesLine line below around.closes _ reads, found, isFound, rfl⟩

namespace Found

variable {content above before line below : Text} {start : Nat} {header : Header}
  (isFound : Found content start header above before line below)

include isFound

theorem next?_eq : next? (Lines.ofText content) start = .ok (some header) := by
  obtain ⟨found, isBeneath, made⟩ := isFound.made
  rw [Header.next?_eq isFound.around isFound.start_le isFound.free isFound.reads, isBeneath, made]
  rfl

theorem inText : header.In content := (in_of_next? content start header isFound.next?_eq).2

theorem noticeStart_eq : header.noticeStart = above.length + before.length := by
  obtain ⟨_, _, made⟩ := isFound.made
  rw [made]
  rfl

theorem leader_eq : header.leader = leaderOf before := by
  obtain ⟨_, _, made⟩ := isFound.made
  rw [made]
  rfl

/-- A header begins behind the comment leader. -/
theorem start_eq : header.start = above.length + (leaderOf before).length := by
  obtain ⟨_, _, made⟩ := isFound.made
  have start : header.start = above.length + before.length - (tagLength? before).getD 0 := by
    rw [made, Header.start, make]
    cases tagLength? before <;> rfl
  rw [start, length_leaderOf, Nat.add_sub_assoc (getD_tagLength?_le before)]

theorem lineStop_eq : header.lineStop = above.length + before.length + line.length := by
  obtain ⟨_, _, made⟩ := isFound.made
  rw [made]
  rfl

theorem slice_start : content.slice start header.noticeStart = above.drop start ++ before := by
  rw [isFound.noticeStart_eq, isFound.around.slice_eq start
    (Nat.le_trans isFound.start_le (Nat.le_add_right _ _)),
    List.drop_append_of_le_length isFound.start_le]

/-- The piece before a header goes up to the end of the comment leader. -/
theorem slice_leader : content.slice start header.start = above.drop start ++ leaderOf before := by
  obtain ⟨tag, whole⟩ := isPrefix_leaderOf before
  have around : content.Around above (leaderOf before ++ (tag ++ line)) below := by
    rw [← List.append_assoc, whole]
    exact isFound.around
  rw [isFound.start_eq, around.slice_eq start
    (Nat.le_trans isFound.start_le (Nat.le_add_right _ _)),
    List.drop_append_of_le_length isFound.start_le]

/-- Before a notice on its line there is none. -/
theorem before_free : Notice.Free before := by
  have free := isFound.free
  rw [List.drop_append_of_le_length isFound.start_le] at free
  exact free.of_infix (List.suffix_append _ _).isInfix

/-- The line of the notice among the lines of the text. -/
theorem all_eq : ∃ others, (Lines.ofText content).all =
    others ++ ⟨above.length, before ++ line, lineEnding below⟩ ::
      linesBelow header.lineStop below := by
  have notEmpty := Notice.ne_nil_of_read? _ _ isFound.reads
  rw [isFound.around.all_eq (List.append_ne_nil_of_right_ne_nil before notEmpty),
    isFound.lineStop_eq, List.length_append, ← Nat.add_assoc, ← linesBelow]
  exact ⟨_, rfl⟩

theorem lineText : header.lineSpan.text content = line := by
  have sliced := Text.slice_append (above ++ before) line below
  rw [List.length_append] at sliced
  rw [Span.text, lineSpan, isFound.lineStop_eq, isFound.noticeStart_eq, isFound.around.whole,
    List.append_assoc, ← List.append_assoc above]
  exact sliced

theorem isOneLine : line.OneLine := fun unit member =>
  isFound.around.isOneLine unit (List.mem_append_right _ member)

theorem drop_lineStop : content.drop header.lineStop = below := by
  rw [isFound.lineStop_eq, isFound.around.whole, List.append_assoc, ← List.append_assoc above,
    ← List.append_assoc, ← List.length_append, ← List.length_append, List.drop_left]

/-- The lines below begin behind the line of the notice, and are in a row. -/
theorem linesBelow_apart :
    (∀ next ∈ linesBelow header.lineStop below, header.lineStop < next.start) ∧
    (linesBelow header.lineStop below).Pairwise (fun earlier later => earlier.stop < later.start) ∧
    ∀ next ∈ linesBelow header.lineStop below, next ∈ (Lines.ofText content).all := by
  obtain ⟨others, all⟩ := isFound.all_eq
  have apart := Lines.stop_lt_start content
  rw [all] at apart
  obtain ⟨below_own, row⟩ := List.pairwise_cons.mp (List.pairwise_append.mp apart).2.1
  refine ⟨fun next member => ?_, row, fun next member => ?_⟩
  · have beyond := below_own next member
    rw [Line.stop, List.length_append, ← Nat.add_assoc, ← isFound.lineStop_eq] at beyond
    exact beyond
  · rw [all]
    exact List.mem_append_right _ (List.mem_cons_of_mem _ member)

/-- Where the parts beneath the notice stand: a license identifier on the next line, and then a long
text that begins with one of the further lines, or at the end of one, and ends with one. -/
theorem places : (∀ license, header.license = some license →
      ∃ next ∈ (Lines.ofText content).all, header.lineStop < next.start ∧
        license.start = next.start + (continuationLeader header.leader).length ∧
        IsIdentifier license.identifier ∧
        ∃ (count : Nat) (blanks : Text),
          next.text = continuationLeader header.leader ++
            (licenseTag ++ (Text.spaces count ++ (license.identifier ++ blanks))) ∧
          license.tagLength = licenseTag.length + count ∧ ∀ unit ∈ blanks, unit.isBlank = true) ∧
    ∀ longForm, header.longForm = some longForm →
      ∃ first ∈ (Lines.ofText content).all, ∃ last ∈ (Lines.ofText content).all,
        header.headStop < first.start ∧
        (longForm.start = first.start ∨ longForm.start = first.stop) ∧
        longForm.stop = last.stop := by
  obtain ⟨beyond, row, members⟩ := isFound.linesBelow_apart
  obtain ⟨found, isBeneath, made⟩ := isFound.made
  rw [← isFound.lineStop_eq] at isBeneath
  have license_eq : header.license = found.license := by rw [made]; rfl
  have longForm_eq : header.longForm = found.longForm := by rw [made]; rfl
  rw [isFound.leader_eq, license_eq, longForm_eq]
  rcases beneath_eq_ok _ _ _ isBeneath with ⟨none, _, finds⟩ |
    ⟨license, next, rest, some, belowWhole, reads, finds⟩
  · refine ⟨fun license isLicense => ?_, fun longForm isLongForm => ?_⟩
    · rw [none] at isLicense
      cases isLicense
    · rw [isLongForm] at finds
      obtain ⟨first, isFirst, last, isLast, starts, stops⟩ := longFormBelow_eq_some _ _ _ _ finds
      refine ⟨first, members _ isFirst, last, members _ isLast, ?_, starts, stops⟩
      rw [headStop, license_eq, none]
      exact beyond first isFirst
  · rw [belowWhole] at beyond row members
    obtain ⟨start, isIdentifier, count, blanks, whole, tagLength, areBlank⟩ :=
      exists_of_licenseOnLine? _ _ _ reads
    refine ⟨fun other isOther => ?_, fun longForm isLongForm => ?_⟩
    · cases some.symm.trans isOther
      exact ⟨next, members _ List.mem_cons_self, beyond _ List.mem_cons_self, start, isIdentifier,
        count, blanks, whole, tagLength, areBlank⟩
    · rw [isLongForm] at finds
      obtain ⟨first, isFirst, last, isLast, starts, stops⟩ := longFormBelow_eq_some _ _ _ _ finds
      refine ⟨first, members _ (List.mem_cons_of_mem _ isFirst), last,
        members _ (List.mem_cons_of_mem _ isLast), ?_, starts, stops⟩
      have inLine := (licenseOnLine?_bounds _ _ _ reads).2
      have apart := (List.pairwise_cons.mp row).1 first isFirst
      rw [headStop, license_eq, some]
      dsimp only
      omega

/-- Behind a header there is nothing but white space on its last line. -/
theorem endsLine : Text.EndsLine (content.drop header.stop) := by
  have atStop (line : Line) (isLine : line ∈ (Lines.ofText content).all) :
      Text.EndsLine (content.drop line.stop) := by
    obtain ⟨above, below, whole, place, closes⟩ := Lines.exists_of_mem content line isLine
    refine ⟨[], below, ?_, by simp, closes⟩
    rw [Line.stop, ← place, ← List.length_append, whole, ← List.append_assoc, List.drop_left,
      List.nil_append]
  obtain ⟨licensePlace, longFormPlace⟩ := isFound.places
  rw [stop]
  cases isLongForm : header.longForm with
  | some longForm =>
    obtain ⟨_, _, last, isLast, _, _, stops⟩ := longFormPlace longForm isLongForm
    dsimp only
    rw [stops]
    exact atStop last isLast
  | none =>
    dsimp only
    rw [headStop]
    cases isLicense : header.license with
    | none => exact ⟨[], below, isFound.drop_lineStop, by simp, isFound.around.closes⟩
    | some license =>
      obtain ⟨next, isNext, _, start, _, count, blanks, text, tagLength, areBlank⟩ :=
        licensePlace license isLicense
      obtain ⟨above, below, whole, place, closes⟩ := Lines.exists_of_mem content next isNext
      refine ⟨blanks, below, ?_, areBlank, closes⟩
      have split : content = (above ++ (continuationLeader header.leader ++
          (licenseTag ++ (Text.spaces count ++ license.identifier)))) ++ (blanks ++ below) := by
        rw [whole, text]
        simp only [List.append_assoc]
      have stop : license.textSpan.stop = (above ++ (continuationLeader header.leader ++
          (licenseTag ++ (Text.spaces count ++ license.identifier)))).length := by
        simp only [LicenseLine.textSpan, List.length_append, start, tagLength, place, Text.spaces,
          List.length_replicate]
        omega
      dsimp only
      rw [stop, split, List.drop_left]

end Found

end Header

end Copyright

end SourceLint
