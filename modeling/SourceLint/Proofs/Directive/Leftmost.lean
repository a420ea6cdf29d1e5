/-
This file says which directives of a text count for a check. They are looked for from the left, each
behind the end of the one before, whatever checks they name. A marker at a word boundary stands
within a directive only in its list of names: the marker begins with a letter that no other part of
a directive has at a word boundary. So every well-formed directive that stands in no list of names
is found, and it counts for a check exactly if it has no list or its list has the check.
-/
import SourceLint.Proofs.Directive.NextLine

namespace SourceLint.Directive

/-! ### The search from the left -/

/-- A directive is written at a position of a text, which is a word boundary. -/
structure WrittenAt (content : Text) (index : Nat) (written : Written) : Prop where
  boundary : AtBoundary false content index
  reads : ∃ blanks enables rest inner, AreBlanks blanks ∧
    content.drop index = head blanks enables ++ rest ∧ Follows enables rest inner ∧
    written = inner.behind (head blanks enables).length

theorem writtenAt_iff (content : Text) (index : Nat) (written : Written) :
    WrittenAt content index written ↔
      AtBoundary false content index ∧ written? (content.drop index) = some written := by
  rw [written?_eq_some_iff]
  exact ⟨fun here => ⟨here.boundary, here.reads⟩, fun here => ⟨here.1, here.2⟩⟩

/-- The directives of a text from a position on, each of them the first one at or behind the end of
the one before. -/
inductive Scan (content : Text) : Nat → List (Nat × Written) → Prop
  | done {start : Nat}
      (nothing : ∀ index, start ≤ index → ∀ written, ¬WrittenAt content index written) :
      Scan content start []
  | next {start index : Nat} {written : Written} {rest : List (Nat × Written)}
      (behind : start ≤ index) (here : WrittenAt content index written)
      (first : ∀ earlier, start ≤ earlier → earlier < index → ∀ other,
        ¬WrittenAt content earlier other)
      (others : Scan content (index + written.length) rest) :
      Scan content start ((index, written) :: rest)

/-- The search from a position on finds the same directives whenever it is made. -/
theorem Scan.unique {content : Text} {start : Nat} {found others : List (Nat × Written)}
    (scan : Scan content start found) (otherScan : Scan content start others) : found = others := by
  induction scan generalizing others with
  | done nothing =>
    cases otherScan with
    | done => rfl
    | next behind here => exact absurd here (nothing _ behind _)
  | @next start index written rest behind here first _ inductionHypothesis =>
    cases otherScan with
    | done nothing => exact absurd here (nothing _ behind _)
    | @next _ other _ _ otherBehind otherHere otherFirst otherRest =>
      rcases Nat.lt_trichotomy index other with before | rfl | after
      · exact absurd here (otherFirst index behind before written)
      · have reads := ((writtenAt_iff _ _ _).mp here).2
        cases reads.symm.trans ((writtenAt_iff _ _ _).mp otherHere).2
        rw [inductionHypothesis otherRest]
      · exact absurd otherHere (first other otherBehind after _)

/-- The search may begin at a position where no directive is written. -/
theorem Scan.of_succ {content : Text} {start : Nat} {found : List (Nat × Written)}
    (scan : Scan content (start + 1) found)
    (notHere : ∀ written, ¬WrittenAt content start written) : Scan content start found := by
  cases scan with
  | done nothing =>
    refine .done fun index behind => ?_
    rcases Nat.eq_or_lt_of_le behind with rfl | later
    · exact notHere
    · exact nothing index later
  | next behind here first others =>
    refine .next (Nat.le_of_succ_le behind) here (fun earlier after => ?_) others
    rcases Nat.eq_or_lt_of_le after with rfl | later
    · exact fun _ => notHere
    · exact first earlier later

theorem length_pos_of_written {text : Text} {written : Written}
    (found : written? text = some written) : 0 < written.length := by
  obtain ⟨blanks, enables, rest, inner, _, _, _, rfl⟩ := (written?_eq_some_iff _ _).mp found
  have isHead := length_head blanks enables
  dsimp only [Written.behind]
  omega

/-- Whether a word may begin behind a unit depends on that unit. -/
theorem drop_succ_of_drop {content : Text} {position : Nat} {unit : CodeUnit} {rest : Text}
    (here : content.drop position = unit :: rest) :
    content.drop (position + 1) = rest ∧
      (AtBoundary false content (position + 1) ↔ unit.isWordUnit = false) := by
  have isUnit : content[position]? = some unit := by
    rw [← List.head?_drop, here]
    rfl
  refine ⟨by rw [← List.tail_drop, here]; rfl, ?_⟩
  simp [AtBoundary, isUnit]

/-- The walk along a text finds what the search from the left does. -/
theorem scan_writtenFrom {content : Text} {position : Nat} {inWord : Bool} {skipped : Nat}
    {text : Text} (here : content.drop position = text)
    (boundary : AtBoundary false content position ↔ inWord = false) :
    Scan content (position + skipped) (writtenFrom position inWord skipped text) := by
  fun_induction writtenFrom position inWord skipped text with
  | case1 position inWord skipped =>
    refine .done fun index behind written isWritten => ?_
    obtain ⟨_, reads⟩ := (writtenAt_iff _ _ _).mp isWritten
    have isEnd : content.drop index = [] := by
      rw [List.drop_eq_nil_iff] at here ⊢
      omega
    rw [isEnd] at reads
    cases reads
  | case2 position inWord skipped unit rest inductionHypothesis =>
    obtain ⟨behind, further⟩ := drop_succ_of_drop here
    rw [Nat.succ_eq_add_one, ← Nat.add_assoc, Nat.add_right_comm]
    exact inductionHypothesis behind further
  | case3 position inWord unit rest written found inductionHypothesis =>
    obtain ⟨notInWord, found⟩ := Option.ite_none_left_eq_some.mp found
    obtain ⟨behind, further⟩ := drop_succ_of_drop here
    have isWritten : WrittenAt content position written :=
      (writtenAt_iff _ _ _).mpr ⟨boundary.mpr (Bool.eq_false_iff.mpr notInWord), here ▸ found⟩
    have others := inductionHypothesis behind further
    have positive := length_pos_of_written found
    rw [Nat.add_assoc, Nat.add_sub_cancel' positive] at others
    exact .next (Nat.le_refl _) isWritten (fun earlier after before => by omega) others
  | case4 position inWord unit rest notFound inductionHypothesis =>
    obtain ⟨behind, further⟩ := drop_succ_of_drop here
    refine Scan.of_succ (inductionHypothesis behind further) fun written isWritten => ?_
    obtain ⟨atBoundary, reads⟩ := (writtenAt_iff _ _ _).mp isWritten
    rw [boundary.mp atBoundary, if_neg Bool.false_ne_true, ← here] at notFound
    cases notFound.symm.trans reads

theorem scan_all (content : Text) : Scan content 0 (all content) := by
  have walk : Scan content (0 + 0) (writtenFrom 0 false 0 content) :=
    scan_writtenFrom rfl ⟨fun _ => rfl, fun _ => rfl⟩
  exact walk

/-! ### Markers within a directive -/

/-- A position lies in the list of names of a directive, at the bracket that opens the list or
behind it. -/
def InList (found : Nat × Written) (position : Nat) : Prop :=
  ∃ names, found.2.names = some names ∧
    found.1 + found.2.length ≤ position + (names.length + 2) ∧
    position < found.1 + found.2.length

/-- The first letter of the marker stands in the marker once more, but within a word. So where it
stands behind the start of a marker and of units unlike it, no word begins. -/
theorem not_atBoundary_behind_marker {content other behind : Text} {index before : Nat}
    (whole : content.drop index = marker ++ (other ++ behind))
    (unlike : ('r' : CodeUnit) ∉ other) (inside : before + 1 < marker.length + other.length)
    (first : content[index + (before + 1)]? = some ('r' : CodeUnit)) :
    ¬AtBoundary false content (index + (before + 1)) := by
  have inWord : ∀ before < marker.length, marker[before + 1]? = some ('r' : CodeUnit) →
      marker[before]?.any CodeUnit.isWordUnit = true := by decide
  intro boundary
  rw [← List.getElem?_drop, whole] at first
  by_cases inMarker : before + 1 < marker.length
  · rw [List.getElem?_append_left inMarker] at first
    obtain ⟨unit, isUnit, isWordUnit⟩ :=
      (Option.any_eq_true _ _).mp (inWord before (Nat.lt_of_succ_lt inMarker) first)
    have here : content[index + before]? = some unit := by
      rw [← List.getElem?_drop, whole, List.getElem?_append_left (Nat.lt_of_succ_lt inMarker)]
      exact isUnit
    have notWord := boundary unit here
    rw [isWordUnit] at notWord
    cases notWord
  · rw [List.getElem?_append_right (Nat.le_of_not_lt inMarker),
      List.getElem?_append_left (by omega)] at first
    exact unlike (List.mem_of_getElem? first)

theorem not_mem_of_areBlanks {blanks : Text} (areBlanks : AreBlanks blanks) :
    ('r' : CodeUnit) ∉ blanks := by
  intro member
  rcases areBlanks.eq_or_eq member with same | same <;> exact absurd same (by decide)

/-- What belongs to a directive behind its keyword has, but for the list, no unit like the first one
of the marker. -/
theorem exists_of_follows {enables : Bool} {rest : Text} {written : Written}
    (follows : Follows enables rest written) :
    ∃ other behind, rest = other ++ behind ∧ ('r' : CodeUnit) ∉ other ∧
      (written.names = none ∧ written.length = other.length ∨
        ∃ names, written.names = some names ∧
          written.length = other.length + (names.length + 2)) := by
  have ofEnds {text : Text} {names : Option Text} {length : Nat} (ends : Ends text names length) :
      ∃ other behind, text = other ++ behind ∧ ('r' : CodeUnit) ∉ other ∧
        (names = none ∧ length = other.length ∨
          ∃ list, names = some list ∧ length = other.length + (list.length + 2)) := by
    cases ends with
    | bare => exact ⟨[], text, rfl, List.not_mem_nil, Or.inl ⟨rfl, rfl⟩⟩
    | @listed blanks names after areBlanks =>
      exact ⟨blanks, _, rfl, not_mem_of_areBlanks areBlanks, Or.inr ⟨names, rfl, rfl⟩⟩
  cases follows with
  | range ends => exact ofEnds ends
  | @nextLine after names length ends =>
    obtain ⟨other, behind, rfl, unlike, measured⟩ := ofEnds ends
    refine ⟨nextLineSuffix ++ other, behind, (List.append_assoc _ _ _).symm, ?_, ?_⟩
    · rw [List.mem_append, not_or]
      exact ⟨by decide, unlike⟩
    · rcases measured with ⟨isNone, rfl⟩ | ⟨list, isSome, rfl⟩
      · exact Or.inl ⟨isNone, List.length_append.symm⟩
      · refine Or.inr ⟨list, isSome, ?_⟩
        rw [List.length_append, Nat.add_assoc]

/-- A marker at a word boundary that stands within a directive stands in its list of names. -/
theorem inList_of_covers {content : Text} {found : Nat × Written} {index : Nat}
    (isWritten : WrittenAt content found.1 found.2) (covers : Covers found index)
    (boundary : AtBoundary false content index)
    (first : content[index]? = some ('r' : CodeUnit)) : InList found index := by
  obtain ⟨start, written⟩ := found
  obtain ⟨after, before⟩ := covers
  obtain ⟨offset, rfl⟩ := Nat.exists_eq_add_of_lt after
  obtain ⟨blanks, enables, rest, inner, areBlanks, whole, follows, rfl⟩ := isWritten.reads
  obtain ⟨other, behind, rfl, unlike, measured⟩ := exists_of_follows follows
  have grouped : content.drop start = marker ++
      ((":" ++ (blanks ++ (keyword enables ++ other))) ++ behind) := by
    rw [whole, head_append]
    simp only [List.append_assoc]
  have allUnlike :
      ('r' : CodeUnit) ∉ Text.ofString ":" ++ (blanks ++ (keyword enables ++ other)) := by
    simp only [List.mem_append, not_or]
    refine ⟨by decide, not_mem_of_areBlanks areBlanks, ?_, unlike⟩
    cases enables <;> decide
  have beyond := mt (not_atBoundary_behind_marker grouped allUnlike · first)
    (not_not_intro boundary)
  have isHead := length_head blanks enables
  simp only [List.length_append] at beyond
  have colon : (Text.ofString ":").length = 1 := by decide
  dsimp only [Written.behind] at before
  rcases measured with ⟨_, length⟩ | ⟨names, isSome, length⟩
  · omega
  · refine ⟨names, isSome, ?_, before⟩
    dsimp only [Written.behind]
    omega

/-! ### Well-formed directives -/

/-- What stands behind the keyword of a well-formed directive: the next-line words whenever their
units come there, and then what may end a directive. -/
inductive WellFormed : Text → Bool → Option Text → Prop
  | nextLine {after : Text} {names : Option Text} {length : Nat} (ends : Ends after names length) :
      WellFormed (nextLineSuffix ++ after) true names
  | range {rest : Text} {names : Option Text} {length : Nat}
      (notLimited : ¬nextLineSuffix <+: rest) (ends : Ends rest names length) :
      WellFormed rest false names

theorem WellFormed.exists_follows {rest : Text} {nextLine : Bool} {names : Option Text}
    (wellFormed : WellFormed rest nextLine names) (enables : Bool) :
    ∃ length, Follows enables rest ⟨length, enables, nextLine, names⟩ := by
  cases wellFormed with
  | nextLine ends => exact ⟨_, .nextLine ends⟩
  | range notLimited ends =>
    exact ⟨_, .range ends fun after same => absurd ⟨after, same.symm⟩ notLimited⟩

theorem KeywordAt.first {content : Text} {index : Nat} {enables : Bool} {rest : Text}
    (keywordAt : KeywordAt content index enables rest) :
    content[index]? = some ('r' : CodeUnit) := by
  obtain ⟨blanks, _, whole⟩ := keywordAt.head_eq
  rw [← List.head?_drop, whole]
  rfl

/-- The check is among the names of a list, which are parted by commas and may have white space
around them. -/
def Lists (names check : Text) : Prop := check ∈ (names.splitAt ',').map Text.trim

theorem appliesTo_iff (written : Written) (check : Text) :
    written.appliesTo check = true ↔ ∀ names, written.names = some names → Lists names check := by
  rw [Written.appliesTo]
  cases written.names with
  | none => simp
  | some names => simp [Lists]

/-- The directives of a text that count for a check. -/
structure Counts (content check : Text) (directives : List Directive) : Prop where
  ascending : directives.Pairwise fun earlier later => earlier.index < later.index
  keywordAt : ∀ directive ∈ directives, ∃ rest,
    KeywordAt content directive.index directive.enables rest
  scanned : ∃ found, Scan content 0 found
  /-- A well-formed directive that begins in no list of names of an earlier one counts, as it is
  written and as nothing else, exactly if it has no list or its list has the check. -/
  mem_iff : ∀ found, Scan content 0 found → ∀ index enables rest nextLine names,
    KeywordAt content index enables rest → WellFormed rest nextLine names →
    (∀ earlier ∈ found, earlier.1 < index → ¬InList earlier index) →
    ∀ directive : Directive, directive.index = index → (directive ∈ directives ↔
      directive.enables = enables ∧ directive.nextLine = nextLine ∧
        (names = none ∨ ∃ list, names = some list ∧ Lists list check))

/-- The directives that are found are those that count. -/
theorem counts_find (content check : Text) : Counts content check (find content check) where
  ascending := find_pairwise content check
  keywordAt := by
    intro directive member
    obtain ⟨written, isWritten, -, enables, -⟩ := (mem_find_iff _ _ _).mp member
    obtain ⟨boundary, here⟩ := written_of_mem_all isWritten
    obtain ⟨blanks, word, rest, inner, areBlanks, whole, follows, rfl⟩ :=
      (written?_eq_some_iff _ _).mp here
    have sameWord : directive.enables = word := enables.trans follows.enables_eq
    exact ⟨rest, boundary, blanks, areBlanks, sameWord ▸ whole⟩
  scanned := ⟨all content, scan_all content⟩
  mem_iff := by
    rintro found scan index enables rest nextLine names keywordAt wellFormed notListed directive rfl
    obtain rfl := scan.unique (scan_all content)
    obtain ⟨length, follows⟩ := wellFormed.exists_follows enables
    obtain ⟨blanks, areBlanks, whole⟩ := keywordAt.head_eq
    have here := (written?_eq_some_iff _ _).mpr
      ⟨blanks, enables, rest, _, areBlanks, whole, follows, rfl⟩
    have uncovered : ∀ found ∈ all content, ¬Covers found (0 + directive.index) := by
      rw [Nat.zero_add]
      intro found isFound covers
      have isWritten := (writtenAt_iff _ _ _).mpr (written_of_mem_all isFound)
      exact notListed found isFound covers.1
        (inList_of_covers isWritten covers keywordAt.boundary keywordAt.first)
    have isWritten := mem_writtenFrom_of_written keywordAt.boundary here (Nat.zero_le _) uncovered
    rw [Nat.zero_add] at isWritten
    have applies (written : Written) (same : written.names = names) :
        written.appliesTo check = true ↔
          names = none ∨ ∃ list, names = some list ∧ Lists list check := by
      rw [appliesTo_iff, same]
      cases names <;> simp
    rw [mem_find_iff]
    constructor
    · rintro ⟨written, member, isApplied, isEnables, isNextLine⟩
      cases (written_of_mem_all member).2.symm.trans here
      exact ⟨isEnables, isNextLine, (applies _ rfl).mp isApplied⟩
    · rintro ⟨isEnables, isNextLine, isApplied⟩
      exact ⟨_, isWritten, (applies _ rfl).mpr isApplied, isEnables, isNextLine⟩

/-- The list of a directive for another check takes the marker in it away. -/
example : find "rapids-pre-commit-hooks: disable [a rapids-pre-commit-hooks: enable] b" "b" = [] ∧
    find "rapids-pre-commit-hooks: disable [a, b ]\trapids-pre-commit-hooks:enable-next-line" "b" =
      [⟨0, false, false⟩, ⟨41, true, true⟩] := by
  decide +kernel

end SourceLint.Directive
