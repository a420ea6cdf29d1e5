/-
This file says when the long text of a license is found below a notice, in words that do not mention
the search: the lines of it stand there one after another, each behind the comment leader. No notice
can stand in such lines, so the headers that are looked for behind the long text are the same ones
that are looked for before it.
-/
import SourceLint.Proofs.Copyright.Searched

namespace SourceLint.Copyright

/-! ### The lines of the long text -/

/-- The lines of the license stand at the start of some lines, each behind a comment leader. White
space at the end of a line does not count. -/
def StandsOn (leader : Text) (texts : List Text) : Prop :=
  (LicenseEntry.apache.map fun expected => Text.trimEnd (leader ++ expected)) <+:
    texts.map Text.trimEnd

instance (leader : Text) (texts : List Text) : Decidable (StandsOn leader texts) :=
  inferInstanceAs (Decidable (_ <+: _))

/-- The lines of the license stand at the start of some lines, or behind a first line with nothing
but the leader. -/
def ShowsLicense (leader : Text) (texts : List Text) : Prop :=
  StandsOn leader texts ∨
    texts.head?.map Text.trimEnd = some (Text.trimEnd leader) ∧ StandsOn leader texts.tail

instance (leader : Text) (texts : List Text) : Decidable (ShowsLicense leader texts) :=
  inferInstanceAs (Decidable (_ ∨ _ ∧ _))

theorem isSome_endOfLines? (leader : Text) (stop : Nat) (expected : List Text) (lines : List Line) :
    (endOfLines? leader stop expected lines).isSome = true ↔
      (expected.map fun text => Text.trimEnd (leader ++ text)) <+:
        (lines.map Line.text).map Text.trimEnd := by
  induction expected generalizing stop lines with
  | nil => simp [endOfLines?]
  | cons text more inductionHypothesis =>
    cases lines with
    | nil => simp [endOfLines?]
    | cons line rest =>
      rw [endOfLines?, List.map_cons, List.map_cons, List.map_cons, List.cons_prefix_cons]
      split
      case isTrue reads =>
        rw [inductionHypothesis]
        exact (and_iff_right (beq_iff_eq.mp reads).symm).symm
      case isFalse unlike =>
        refine ⟨fun isSome => Bool.noConfusion isSome, fun both => absurd ?_ unlike⟩
        exact beq_iff_eq.mpr both.1.symm

/-- The first line of the license is more than the leader. -/
theorem not_standsOn_of_blank {leader first : Text} {rest : List Text}
    (isBlank : Text.trimEnd first = Text.trimEnd leader) : ¬StandsOn leader (first :: rest) := by
  rintro ⟨more, whole⟩
  have reads : Text.trimEnd (leader ++
      "Licensed under the Apache License, Version 2.0 (the \"License\");") = Text.trimEnd leader :=
    (List.cons.inj whole).1.trans isBlank
  rw [Text.trimEnd_append _ _ (by decide +kernel)] at reads
  have shorter := Text.length_trimEnd_le leader
  rw [← reads, List.length_append] at shorter
  have longer : 0 < (Text.trimEnd
      "Licensed under the Apache License, Version 2.0 (the \"License\");").length := by
    decide +kernel
  omega

theorem not_standsOn_nil (leader : Text) : ¬StandsOn leader [] := by
  rw [StandsOn, List.map_nil, List.prefix_nil, List.map_eq_nil_iff]
  exact List.cons_ne_nil _ _

/-- The long text of a license is found if it stands below. -/
theorem isSome_longFormBelow {identifier leader : Text} {below : List Line}
    {longForm : Option Span} (finds : longFormBelow identifier leader below = .ok longForm) :
    longForm.isSome = true ↔
      identifier = Text.ofString "Apache-2.0" ∧ ShowsLicense leader (below.map Line.text) := by
  rw [longFormBelow.eq_def, LicenseEntry.ofIdentifier] at finds
  by_cases isApache : identifier = Text.ofString "Apache-2.0"
  · rw [if_pos isApache] at finds
    rw [and_iff_right isApache]
    cases below with
    | nil =>
      cases finds
      refine ⟨fun isSome => Bool.noConfusion isSome, fun shows => ?_⟩
      exact (shows.elim (not_standsOn_nil leader) fun shows =>
        not_standsOn_nil leader shows.2).elim
    | cons first rest =>
      dsimp only at finds
      cases finds
      rw [Option.isSome_map, isSome_endOfLines?]
      have blank : lineReads leader [] first = true ↔
          Text.trimEnd first.text = Text.trimEnd leader := by
        rw [lineReads, beq_iff_eq, List.append_nil]
      split
      case isTrue isBlank =>
        have isBlank := blank.mp isBlank
        refine ⟨fun stands => Or.inr ⟨congrArg some isBlank, stands⟩, fun shows => ?_⟩
        exact (shows.resolve_left (not_standsOn_of_blank isBlank)).2
      case isFalse notBlank =>
        refine ⟨Or.inl, fun shows => shows.resolve_right fun shows => notBlank ?_⟩
        exact blank.mpr (Option.some.inj shows.1)
  · rw [if_neg isApache] at finds
    have isNone : longForm = none := by
      split at finds
      · cases finds
        rfl
      · cases finds
        rfl
      · cases finds
      case h_4 known =>
        split at known <;> cases known
    rw [isNone]
    exact ⟨fun isSome => Bool.noConfusion isSome, fun both => absurd both.1 isApache⟩

/-! ### Notices below the long text -/

/-- The lines that are read are above a line that cannot be one of them. -/
theorem endOfLines?_above_unread (leader : Text) (stop found : Nat) (expected : List Text)
    (common : List Line) (line : Line) (more : List Line)
    (isPart : expected ⊆ LicenseEntry.apache) (unread : Unread leader line)
    (ends : endOfLines? leader stop expected (common ++ line :: more) = some found) :
    expected = [] ∧ found = stop ∨ ∃ last ∈ common, found = last.stop := by
  induction expected generalizing stop common with
  | nil =>
    rw [endOfLines?] at ends
    exact Or.inl ⟨rfl, (Option.some.inj ends).symm⟩
  | cons text rest inductionHypothesis =>
    obtain ⟨isText, restPart⟩ := List.cons_subset.mp isPart
    cases common with
    | nil =>
      rw [List.nil_append, endOfLines?, unread text (List.mem_cons_of_mem _ isText)] at ends
      cases ends
    | cons first common =>
      rw [List.cons_append, endOfLines?] at ends
      split at ends
      · rcases inductionHypothesis _ common restPart ends with ⟨_, rfl⟩ | ⟨last, isLast, rfl⟩
        · exact Or.inr ⟨first, List.mem_cons_self, rfl⟩
        · exact Or.inr ⟨last, List.mem_cons_of_mem _ isLast, rfl⟩
      · cases ends

/-- A long text ends above a line that cannot be one of its lines. -/
theorem longFormBelow_above_unread (identifier leader : Text) (common : List Line) (line : Line)
    (more : List Line) (unread : Unread leader line) (longForm : Span)
    (finds : longFormBelow identifier leader (common ++ line :: more) = .ok (some longForm)) :
    ∃ last ∈ common, longForm.stop = last.stop := by
  have above (stop found : Nat) (before : List Line)
      (ends : endOfLines? leader stop LicenseEntry.apache (before ++ line :: more) = some found) :
      ∃ last ∈ before, found = last.stop :=
    (endOfLines?_above_unread leader stop found _ before line more (List.Subset.refl _) unread
      ends).resolve_left fun empty => absurd empty.1 (List.cons_ne_nil _ _)
  obtain ⟨first, rest, lines, ⟨isBlank, _, isStop⟩ | ⟨_, _, isStop⟩⟩ :=
    exists_of_longFormBelow identifier leader _ longForm finds
  · cases common with
    | nil =>
      obtain ⟨rfl, rfl⟩ := List.cons.inj lines
      rw [unread [] List.mem_cons_self] at isBlank
      cases isBlank
    | cons other common =>
      obtain ⟨rfl, rfl⟩ := List.cons.inj lines
      obtain ⟨last, isLast, same⟩ := above _ _ common isStop
      exact ⟨last, List.mem_cons_of_mem _ isLast, same⟩
  · exact above _ _ common (lines ▸ isStop)

namespace Header

/-- A search that begins later, but not behind the first notice, finds the same headers. -/
theorem Searched.of_later {content : Text} {start later : Nat} {headers : List Header}
    (searched : Searched content start headers) (after : start ≤ later)
    (before : ∀ header ∈ headers.head?, later ≤ header.noticeStart) :
    Searched content later headers := by
  cases searched with
  | done _ isLast =>
    have free := (next?_eq_none_iff _ _).mp isLast
    refine .done later ((next?_eq_none_iff _ _).mpr (free.of_infix ?_))
    rw [← Nat.add_sub_cancel' after, ← List.drop_drop]
    exact (List.drop_suffix _ _).isInfix
  | found _ header rest isNext _ others =>
    have noticeAfter := before header rfl
    have isLater : next? (Lines.ofText content) later = .ok (some header) := by
      rw [next?, Lines.content_ofText] at isNext ⊢
      split at isNext
      · cases isNext
      case h_2 noticeStart notice finds =>
        obtain ⟨_, made, same⟩ := exists_of_map_eq_ok _ _ _ isNext
        cases same
        have start_eq := (in_of_ofNotice content noticeStart notice
          (Notice.free_of_find? _ _ _ _ finds).2.1 header made).1
        rw [start_eq] at noticeAfter
        rw [Notice.find?_later finds after noticeAfter]
        dsimp only
        rw [made]
        rfl
    exact .found later header rest isLater (stop_bounds content later header isLater).1 others

namespace Found

variable {content above before line below : Text} {start : Nat} {header : Header}
  (isFound : Found content start header above before line below)

include isFound

/-- A line that begins behind the line of a notice is one of the lines below. -/
theorem mem_linesBelow {other : Line} (isLine : other ∈ (Lines.ofText content).all)
    (behind : header.lineStop < other.start) : other ∈ linesBelow header.lineStop below := by
  obtain ⟨others, all⟩ := isFound.all_eq
  have apart := Lines.stop_lt_start content
  rw [all] at apart isLine
  have forward := other.start_le_stop
  have ownStop : (⟨above.length, before ++ line, lineEnding below⟩ : Line).stop =
      header.lineStop := by
    rw [Line.stop, List.length_append, ← Nat.add_assoc, isFound.lineStop_eq]
  have ownForward := Line.start_le_stop ⟨above.length, before ++ line, lineEnding below⟩
  rcases List.mem_append.mp isLine with isAbove | isOwnOrBelow
  · have before := (List.pairwise_append.mp apart).2.2 other isAbove _ List.mem_cons_self
    omega
  · rcases List.mem_cons.mp isOwnOrBelow with rfl | isBelow
    · omega
    · exact isBelow

/-- The long text of a header ends above any line below its head that is no line of a license. -/
theorem longForm_above {longForm : Span} (isLongForm : header.longForm = some longForm)
    {common more : List Line} {other : Line}
    (lines : linesBelow header.lineStop below = common ++ other :: more)
    (behind : header.headStop < other.start)
    (unread : ∀ leader : Text, Notice.Free leader → Unread leader other) :
    ∃ last ∈ common, longForm.stop = last.stop := by
  have leaderFree : Notice.Free (leaderOf before) :=
    isFound.before_free.of_infix (isPrefix_leaderOf before).isInfix
  have onceFree := continuationLeader_free leaderFree
  obtain ⟨found, isBeneath, made⟩ := isFound.made
  have license_eq : header.license = found.license := by rw [made]; rfl
  have longForm_eq : found.longForm = some longForm := by rw [← isLongForm, made]; rfl
  rw [← isFound.lineStop_eq, lines] at isBeneath
  rcases beneath_eq_ok _ _ _ isBeneath with ⟨_, _, finds⟩ |
    ⟨license, next, rest, isSome, whole, reads, finds⟩
  · rw [longForm_eq] at finds
    exact longFormBelow_above_unread _ _ _ _ _ (unread _ onceFree) _ finds
  · rw [longForm_eq] at finds
    cases common with
    | nil =>
      -- The license identifier would stand on the line that begins behind it.
      obtain ⟨rfl, _⟩ := List.cons.inj whole
      have inLine := (licenseOnLine?_bounds _ _ _ reads).1
      rw [headStop, license_eq, isSome] at behind
      dsimp only [LicenseLine.textSpan] at behind
      omega
    | cons first common =>
      obtain ⟨rfl, rfl⟩ := List.cons.inj whole
      obtain ⟨last, isLast, stop⟩ := longFormBelow_above_unread _ _ _ _ _
        (unread _ (continuationLeader_free onceFree)) _ finds
      exact ⟨last, List.mem_cons_of_mem _ isLast, stop⟩

/-- No notice stands in the long text of a header, so what is found behind the text is found from
the end of its head on. -/
theorem searched_stop (ends : Text.EndsLine (content.drop header.headStop)) {headers : List Header}
    (searched : Searched content header.headStop headers) :
    Searched content header.stop headers := by
  refine searched.of_later isFound.inText.headStop_le_stop fun next isFirst => ?_
  obtain ⟨rest, rfl⟩ := List.head?_eq_some_iff.mp isFirst
  obtain ⟨⟨nextAbove, nextBefore, nextLine, nextBelow, isNext⟩, _, _⟩ :=
    searched.exists_found (Or.inr ends)
  have onLater := ends.length_lt isNext.around (Notice.head?_of_read? _ _ isNext.reads)
    (by decide) (Nat.le_trans isNext.start_le (Nat.le_add_right _ _))
  rw [isNext.noticeStart_eq, Header.stop]
  cases isLongForm : header.longForm with
  | none => exact Nat.le_of_lt (Nat.lt_of_lt_of_le onLater (Nat.le_add_right _ _))
  | some longForm =>
    obtain ⟨others, all⟩ := isNext.all_eq
    have isLine : ⟨nextAbove.length, nextBefore ++ nextLine, lineEnding nextBelow⟩ ∈
        (Lines.ofText content).all := by
      rw [all]
      exact List.mem_append_right _ List.mem_cons_self
    obtain ⟨common, more, lines⟩ := List.append_of_mem (isFound.mem_linesBelow isLine
      (Nat.lt_of_le_of_lt isFound.inText.headStop_in_line.1 onLater))
    obtain ⟨last, isLast, stop⟩ := isFound.longForm_above isLongForm lines onLater
      fun leader free => unread_of_notice free _ _ isNext.reads _ _
    have row := isFound.linesBelow_apart.2.1
    rw [lines] at row
    have apart := (List.pairwise_append.mp row).2.2 last isLast _ List.mem_cons_self
    dsimp only at apart ⊢
    omega

end Found

end Header

end SourceLint.Copyright
