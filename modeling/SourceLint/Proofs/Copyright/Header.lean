/-
This file says where the headers of a text stand. A notice lies in one line, its tag before it and
its comment leader included; the license identifier lies in a later line, and the long text of the
license begins after both. Each header is looked for after the end of the one before.
-/
import SourceLint.Copyright.Header
import SourceLint.Proofs.Copyright.Notice
import SourceLint.Proofs.Copyright.Search
import SourceLint.Proofs.Linter.Placed

namespace SourceLint.Copyright

/-- What is done after something else can succeed only after that has succeeded. -/
theorem exists_of_bind_eq_ok {Failure First Second : Type} (first : Except Failure First)
    (next : First → Except Failure Second) (result : Second)
    (succeeds : (first >>= next) = .ok result) :
    ∃ value, first = .ok value ∧ next value = .ok result := by
  cases first with
  | error failure => cases succeeds
  | ok value => exact ⟨value, rfl, succeeds⟩

theorem exists_of_map_eq_ok {Failure First Second : Type} (first : Except Failure First)
    (function : First → Second) (result : Second) (succeeds : first.map function = .ok result) :
    ∃ value, first = .ok value ∧ function value = result := by
  cases first with
  | error failure => cases succeeds
  | ok value => exact ⟨value, rfl, Except.ok.inj succeeds⟩

/-! ### The tag and the license identifier -/

/-- The tag before a notice stands in what is before the notice. -/
theorem Header.tagLength?_le (text : Text) (length : Nat)
    (reads : tagLength? text = some length) : length ≤ text.length := by
  rw [tagLength?] at reads
  split at reads
  case isTrue ends =>
    cases reads
    have tagBound := (List.isSuffixOf_iff_suffix.mp ends).length_le
    have spacesBound : (Notice.skipSpaces text.reverse).reverse.length ≤ text.length := by
      rw [List.length_reverse, ← text.length_reverse]
      exact (List.dropWhile_sublist _).length_le
    omega
  case isFalse => cases reads

/-- A license identifier lies in the text from which it was read. -/
theorem LicenseLine.read?_bounds (start : Nat) (text : Text) (license : LicenseLine)
    (reads : read? start text = some license) :
    license.start = start ∧ license.tagLength + license.identifier.length ≤ text.length := by
  obtain ⟨rest, readsTag, reads⟩ := Option.bind_eq_some_iff.mp reads
  obtain ⟨unit, _, reads⟩ := Option.bind_eq_some_iff.mp reads
  split at reads
  · cases reads
  · cases reads
    refine ⟨rfl, ?_⟩
    have whole := congrArg List.length (Text.after?_eq_some _ _ _ readsTag)
    have trimmed := Text.length_trimEnd_le (Notice.skipSpaces rest)
    have skipped : (Notice.skipSpaces rest).length ≤ rest.length :=
      (List.dropWhile_sublist _).length_le
    rw [List.length_append] at whole
    dsimp only
    omega

theorem Header.licenseOnLine?_bounds (leader : Text) (line : Line) (license : LicenseLine)
    (reads : licenseOnLine? leader line = some license) :
    line.start ≤ license.start ∧ license.textSpan.stop ≤ line.stop := by
  obtain ⟨rest, readsLeader, reads⟩ := Option.bind_eq_some_iff.mp reads
  obtain ⟨start, bound⟩ := LicenseLine.read?_bounds _ _ _ reads
  have whole := congrArg List.length (Text.after?_eq_some _ _ _ readsLeader)
  rw [List.length_append] at whole
  refine ⟨by omega, ?_⟩
  show license.start + license.tagLength + license.identifier.length ≤ line.start + line.text.length
  omega

/-! ### The long text of a license -/

/-- The long text stops where the lines before it stop, or at the end of one of its lines. -/
theorem endOfLines?_eq_some (leader : Text) (stop : Nat) (expected : List Text)
    (lines : List Line) (found : Nat) (ends : endOfLines? leader stop expected lines = some found) :
    found = stop ∨ ∃ line ∈ lines, found = line.stop := by
  fun_induction endOfLines? leader stop expected lines with
  | case1 =>
    cases ends
    exact Or.inl rfl
  | case2 => cases ends
  | case3 stop expected more line rest _ inductionHypothesis =>
    rcases inductionHypothesis ends with rfl | ⟨last, isLast, rfl⟩
    · exact Or.inr ⟨line, List.mem_cons_self, rfl⟩
    · exact Or.inr ⟨last, List.mem_cons_of_mem _ isLast, rfl⟩
  | case4 => cases ends

/-- The long text stops no earlier than it starts, and in the text, if its lines do. -/
theorem endOfLines?_bounds (leader : Text) (start : Nat) (expected : List Text) (lines : List Line)
    (length found : Nat) (inside : start ≤ length)
    (behind : ∀ line ∈ lines, start ≤ line.stop ∧ line.stop ≤ length)
    (ends : endOfLines? leader start expected lines = some found) :
    start ≤ found ∧ found ≤ length := by
  rcases endOfLines?_eq_some _ _ _ _ _ ends with rfl | ⟨line, isLine, rfl⟩
  · exact ⟨Nat.le_refl _, inside⟩
  · exact behind line isLine

/-- The long text of a license begins with a line after the one that holds a position, or at the end
of that line. -/
theorem exists_of_findLongForm (content identifier : Text) (position : Nat) (longForm : Span)
    (finds : findLongForm (Lines.ofText content) identifier position = .ok (some longForm)) :
    ∃ (number : Nat) (line next : Line), (Lines.ofText content).all[number]? = some line ∧
      line.start ≤ position ∧ position ≤ line.stop ∧
      next ∈ (Lines.ofText content).all ∧ line.stop < next.start ∧
      (longForm.start = next.start ∨ longForm.start = next.stop) ∧
      longForm.start ≤ longForm.stop ∧ longForm.stop ≤ content.length := by
  rw [findLongForm] at finds
  split at finds
  · cases finds
  · obtain ⟨number, looked, finds⟩ := exists_of_bind_eq_ok _ _ _ finds
    obtain ⟨line, isLine, after, before⟩ := Lines.exists_line_of_lineAt _ _ _ looked
    dsimp only at finds
    split at finds
    · cases finds
    · cases finds
    · cases finds
    case h_4 first rest expected below _ =>
      obtain ⟨stop, ends, rfl⟩ := Option.map_eq_some_iff.mp (Except.ok.inj finds)
      have isFirst : (Lines.ofText content).all[number + 1]? = some first := by
        rw [← List.head?_drop, below]
        rfl
      have apart := (Lines.stop_lt_start content).sublist (List.drop_sublist (number + 1) _)
      have inText : ∀ next ∈ first :: rest, next.stop ≤ content.length := fun next member =>
        Lines.stop_le_length content next (List.mem_of_mem_drop (below ▸ member))
      rw [below, List.pairwise_cons] at apart
      obtain ⟨firstInText, restInText⟩ := List.forall_mem_cons.mp inText
      have forward := first.start_le_stop
      have restBehind : ∀ next ∈ rest, first.stop ≤ next.stop := fun next member =>
        Nat.le_trans (Nat.le_of_lt (apart.1 next member)) next.start_le_stop
      refine ⟨number, line, first, isLine, after, before, List.mem_of_getElem? isFirst,
        Lines.stop_lt_of_index_lt content number (number + 1) (Nat.lt_succ_self _) _ _ isLine
          isFirst, ?_⟩
      -- The text begins behind the line if that has nothing but the leader.
      split at ends
      case isTrue isBlank =>
        rw [if_pos isBlank]
        exact ⟨Or.inr rfl, endOfLines?_bounds _ _ _ _ _ _ firstInText
          (fun next member => ⟨restBehind next member, restInText next member⟩) ends⟩
      case isFalse notBlank =>
        rw [if_neg notBlank]
        refine ⟨Or.inl rfl, endOfLines?_bounds _ _ _ _ _ _ (Nat.le_trans forward firstInText)
          (List.forall_mem_cons.mpr ⟨⟨forward, firstInText⟩, fun next member => ?_⟩) ends⟩
        exact ⟨Nat.le_trans forward (restBehind next member), restInText next member⟩

/-! ### Headers in their places -/

/-- Where the parts of a header stand in a text. -/
structure Header.In (content : Text) (header : Header) : Prop where
  reads : Notice.read? (content.drop header.noticeStart) = some header.notice
  line : ∃ line ∈ (Lines.ofText content).all, line.start ≤ header.start ∧
    header.start ≤ header.noticeStart ∧
    header.noticeStart + header.notice.length ≤ line.stop ∧ header.lineStop = line.stop
  license : ∀ license, header.license = some license →
    ∃ line ∈ (Lines.ofText content).all, header.lineStop < line.start ∧
      line.start ≤ license.start ∧ license.textSpan.stop ≤ line.stop
  longForm : ∀ longForm, header.longForm = some longForm →
    longForm.PlacedIn content ∧ header.headStop < longForm.start

/-- The head of a header ends in the line in which its last part begins: the license identifier, or
the notice with its tag. -/
theorem Header.headStop_le_of_line (content : Text) (header : Header) (line last : Line)
    (isLine : line ∈ (Lines.ofText content).all) (isLast : last ∈ (Lines.ofText content).all)
    (stop : header.lineStop = line.stop)
    (license : ∀ license, header.license = some license → ∃ place ∈ (Lines.ofText content).all,
      place.start ≤ license.start ∧ license.textSpan.stop ≤ place.stop)
    (start : Nat) (startAfter : line.start ≤ start) (startBefore : start ≤ line.stop)
    (after : last.start ≤ (header.license.map LicenseLine.start).getD start)
    (before : (header.license.map LicenseLine.start).getD start ≤ last.stop) :
    header.headStop ≤ last.stop := by
  rw [Header.headStop]
  cases isLicense : header.license with
  | none =>
    simp only [isLicense, Option.map_none, Option.getD_none] at after before
    have same : line = last := Lines.eq_of_touching content line last isLine isLast
      (Nat.le_trans startAfter before) (Nat.le_trans after startBefore)
    exact Nat.le_of_eq (stop.trans (congrArg Line.stop same))
  | some found =>
    simp only [isLicense, Option.map_some, Option.getD_some] at after before
    obtain ⟨place, isPlace, placeAfter, placeBefore⟩ := license found isLicense
    have forward : found.start ≤ found.textSpan.stop := by
      dsimp only [LicenseLine.textSpan]
      omega
    have same : place = last := Lines.eq_of_touching content place last isPlace isLast
      (Nat.le_trans placeAfter before) (Nat.le_trans after (Nat.le_trans forward placeBefore))
    exact same ▸ placeBefore

theorem Header.in_of_ofNotice (content : Text) (noticeStart : Nat) (notice : Notice)
    (reads : Notice.read? (content.drop noticeStart) = some notice) (header : Header)
    (made : ofNotice (Lines.ofText content) noticeStart notice = .ok header) :
    header.noticeStart = noticeStart ∧ header.In content := by
  obtain ⟨number, looked, made⟩ := exists_of_bind_eq_ok _ _ _ made
  obtain ⟨line, isLine, after, before⟩ := Lines.exists_line_of_lineAt _ _ _ looked
  simp only [isLine, Option.getD_some] at made
  obtain ⟨longForm, finds, made⟩ := exists_of_bind_eq_ok _ _ _ made
  have isMember := List.mem_of_getElem? isLine
  obtain ⟨lead, years, name, rest, parts⟩ := Notice.exists_parts_of_read? _ _ reads
  generalize tag_eq : tagLength? _ = tag at made finds
  have tagBound : tag.getD 0 ≤ noticeStart - line.start := by
    cases tag with
    | none => exact Nat.zero_le _
    | some length =>
      exact Nat.le_trans (tagLength?_le _ length tag_eq) (List.length_take_le _ _)
  generalize license_eq : Option.bind _ _ = license at made finds
  have licensePlace : ∀ found, license = some found → ∃ next,
      (Lines.ofText content).all[number + 1]? = some next ∧ next.start ≤ found.start ∧
        found.textSpan.stop ≤ next.stop := by
    rintro found rfl
    obtain ⟨next, isNext, readsLicense⟩ := Option.bind_eq_some_iff.mp license_eq
    exact ⟨next, isNext, licenseOnLine?_bounds _ _ _ readsLicense⟩
  cases made
  have start_eq : (tag.map fun length => noticeStart - length).getD noticeStart =
      noticeStart - tag.getD 0 := by
    cases tag <;> rfl
  refine ⟨rfl, reads, ⟨line, isMember, ?_⟩, ?_, ?_⟩
  · have inLine := Lines.add_length_le_stop content line isMember noticeStart after before
      (lead ++ years ++ name) rest parts.oneLine
      (by simpa only [List.append_assoc] using parts.whole)
    have length := parts.length_eq
    simp only [List.length_append] at inLine
    rw [start, start_eq]
    dsimp only
    omega
  · intro found isLicense
    obtain ⟨next, isNext, after, before⟩ := licensePlace found isLicense
    exact ⟨next, List.mem_of_getElem? isNext, Lines.stop_lt_of_index_lt content number (number + 1)
      (Nat.lt_succ_self _) _ _ isLine isNext, after, before⟩
  · rintro found rfl
    obtain ⟨_, last, next, isLast, lastAfter, lastBefore, isNext, apart, begins, proper, inside⟩ :=
      exists_of_findLongForm content _ _ found finds
    have isLast := List.mem_of_getElem? isLast
    have nextForward := next.start_le_stop
    refine ⟨⟨proper, inside, ?_⟩, ?_⟩
    · exact Lines.not_splitsBreak_of_mem content next isNext _ (by omega) (by omega)
    -- The head ends in the line after which the long text is looked for.
    · refine Nat.lt_of_le_of_lt (Header.headStop_le_of_line content _ line last isMember isLast rfl
        (fun found isLicense => ?_) (noticeStart - tag.getD 0) (by omega) (by omega) ?_ ?_)
        (by omega : last.stop < found.start)
      · obtain ⟨place, isPlace, bounds⟩ := licensePlace found isLicense
        exact ⟨place, List.mem_of_getElem? isPlace, bounds⟩
      · exact lastAfter
      · exact lastBefore

namespace Header.In

variable {content : Text} {header : Header} (inText : header.In content)

include inText

theorem noticeStart_le_lineStop : header.noticeStart + header.notice.length ≤ header.lineStop := by
  obtain ⟨line, _, _, _, inLine, stop⟩ := inText.line
  exact stop ▸ inLine

/-- The end of a header without the long text is in a line that does not stop before the header's
own. -/
theorem headStop_in_line : header.lineStop ≤ header.headStop ∧
    ∃ line ∈ (Lines.ofText content).all, line.start ≤ header.headStop ∧
      header.headStop ≤ line.stop := by
  rw [headStop]
  cases isLicense : header.license with
  | none =>
    obtain ⟨line, isLine, _, _, _, stop⟩ := inText.line
    exact ⟨Nat.le_refl _, line, isLine, stop ▸ line.start_le_stop, Nat.le_of_eq stop⟩
  | some license =>
    obtain ⟨line, isLine, beyond, after, before⟩ := inText.license license isLicense
    have inLine : license.start ≤ license.textSpan.stop := by
      dsimp only [LicenseLine.textSpan]
      omega
    exact ⟨by dsimp only; omega, line, isLine, Nat.le_trans after inLine, before⟩

theorem headStop_le_stop : header.headStop ≤ header.stop := by
  rw [Header.stop]
  cases isLongForm : header.longForm with
  | none => exact Nat.le_refl _
  | some longForm =>
    obtain ⟨placed, beyond⟩ := inText.longForm longForm isLongForm
    exact Nat.le_trans (Nat.le_of_lt beyond) placed.1

end Header.In

/-! ### All headers -/

/-- Headers in a text, each looked for after the end of the one before. -/
def Header.Row (content : Text) (headers : List Header) : Prop :=
  (∀ header ∈ headers, header.In content) ∧
    headers.Pairwise fun earlier later => earlier.stop ≤ later.noticeStart

theorem Header.in_of_next? (content : Text) (start : Nat) (header : Header)
    (isNext : next? (Lines.ofText content) start = .ok (some header)) :
    start ≤ header.noticeStart ∧ header.In content := by
  rw [next?] at isNext
  split at isNext
  · cases isNext
  case h_2 noticeStart notice finds =>
    obtain ⟨after, reads, _⟩ := Notice.free_of_find? _ _ _ _ finds
    obtain ⟨_, made, same⟩ := exists_of_map_eq_ok _ _ _ isNext
    cases same
    obtain ⟨rfl, inText⟩ := in_of_ofNotice content noticeStart notice reads header made
    exact ⟨after, inText⟩

theorem Header.row_someFrom (content : Text) (count start : Nat) (headers : List Header)
    (finds : someFrom (Lines.ofText content) count start = .ok headers) :
    Row content headers ∧ ∀ header ∈ headers, start ≤ header.noticeStart := by
  induction count generalizing start headers with
  | zero =>
    cases finds
    exact ⟨⟨by simp, .nil⟩, by simp⟩
  | succ count inductionHypothesis =>
    rw [someFrom] at finds
    split at finds
    · cases finds
    · cases finds
      exact ⟨⟨by simp, .nil⟩, by simp⟩
    case h_3 header isNext =>
      obtain ⟨after, inText⟩ := in_of_next? content start header isNext
      obtain ⟨rest, others, rfl⟩ := exists_of_map_eq_ok _ _ _ finds
      obtain ⟨⟨restIn, restRow⟩, beyond⟩ := inductionHypothesis header.stop rest others
      have bounds := inText.noticeStart_le_lineStop
      have head := inText.headStop_in_line.1
      have stop := inText.headStop_le_stop
      refine ⟨⟨List.forall_mem_cons.mpr ⟨inText, restIn⟩, .cons beyond restRow⟩,
        List.forall_mem_cons.mpr ⟨after, fun later member => ?_⟩⟩
      have apart := beyond later member
      omega

/-- The headers of a text are in a row. -/
theorem Header.row_all (content : Text) (headers : List Header)
    (finds : Header.all (Lines.ofText content) = .ok headers) : Row content headers :=
  (row_someFrom content _ _ headers finds).1

end SourceLint.Copyright
