/-
This file says when the directives of a text can be found line by line. No line ends within a
directive, except in its list of names: a line feed keeps a list from being closed, but a carriage
return by itself does not. So the directives of a text are those of its lines, each at its place,
exactly if every list of names stands on one line.
-/
import SourceLint.Proofs.Directive.Scan
import SourceLint.Proofs.Lines.Changed

namespace SourceLint

/-- What stands on one line at the start of a text is found again before the end of the line. -/
theorem Text.ClosesLine.exists_of_append {front text below rest : Text} (closes : below.ClosesLine)
    (isOneLine : front.OneLine) (whole : text ++ below = front ++ rest) :
    ∃ behind, text = front ++ behind ∧ rest = behind ++ below := by
  rcases List.append_eq_append_iff.mp whole with ⟨beyond, rfl, rfl⟩ | within
  · cases beyond with
    | nil => exact ⟨[], by simp⟩
    | cons unit more =>
      obtain ⟨notFeed, notReturn⟩ := isOneLine unit (List.mem_append_right _ List.mem_cons_self)
      rcases closes unit rfl with isFeed | isReturn
      · exact absurd isFeed notFeed
      · exact absurd isReturn notReturn
  · exact within

namespace Directive

/-- The names of a directive, if it has any, stand on one line. -/
def Written.OnOneLine (written : Written) : Prop := ∀ names ∈ written.names, Text.OneLine names

/-- The directives for a check that are found when each line of a text is read by itself. -/
def findByLine (content check : Text) : List Directive :=
  (Lines.ofText content).all.flatMap fun line =>
    (find line.text check).map fun directive =>
      { directive with index := line.start + directive.index }

/-! ### What is read before the end of a line -/

section Below

variable {text below : Text} (closes : below.ClosesLine)

theorem AreBlanks.isOneLine {blanks : Text} (areBlanks : AreBlanks blanks) : blanks.OneLine := by
  intro unit member
  rcases areBlanks.eq_or_eq member with rfl | rfl <;> decide

theorem isOneLine_head {blanks : Text} (areBlanks : AreBlanks blanks) (enables : Bool) :
    (head blanks enables).OneLine := by
  have front : (marker ++ ":").OneLine := by decide
  have word : (keyword enables).OneLine := by cases enables <;> decide
  exact (front.append areBlanks.isOneLine).append word

include closes

theorem endsWord_append_iff : EndsWord (text ++ below) ↔ EndsWord text := by
  cases text with
  | nil =>
    refine iff_of_true (fun unit first => ?_) (by rintro unit ⟨⟩)
    rcases closes unit first with rfl | rfl <;> decide
  | cons unit rest => exact Iff.rfl

theorem opensBracket_append_iff : OpensBracket (text ++ below) ↔ OpensBracket text := by
  constructor
  · rintro ⟨blanks, rest, areBlanks, same⟩
    have front : (blanks ++ [('[' : CodeUnit)]).OneLine := areBlanks.isOneLine.append (by decide)
    have whole : text ++ below = blanks ++ [('[' : CodeUnit)] ++ rest := by simp [same]
    obtain ⟨behind, rfl, -⟩ := closes.exists_of_append front whole
    exact ⟨blanks, behind, areBlanks, by simp⟩
  · rintro ⟨blanks, rest, areBlanks, rfl⟩
    exact ⟨blanks, rest ++ below, areBlanks, by simp⟩

theorem Ends.append {names : Option Text} {length : Nat} (ends : Ends text names length) :
    Ends (text ++ below) names length := by
  cases ends with
  | bare endsWord noBracket =>
    exact .bare ((endsWord_append_iff closes).mpr endsWord)
      fun opens => noBracket ((opensBracket_append_iff closes).mp opens)
  | listed areBlanks notEmpty areNames noBracket =>
    rw [List.append_assoc, List.cons_append, List.append_assoc, List.cons_append]
    exact .listed areBlanks notEmpty areNames
      fun opens => noBracket ((opensBracket_append_iff closes).mp opens)

theorem Ends.of_append {names : Option Text} {length : Nat}
    (ends : Ends (text ++ below) names length)
    (areOneLine : ∀ list ∈ names, Text.OneLine list) : Ends text names length := by
  generalize whole : text ++ below = all at ends
  cases ends with
  | bare endsWord noBracket =>
    subst whole
    exact .bare ((endsWord_append_iff closes).mp endsWord)
      fun opens => noBracket ((opensBracket_append_iff closes).mpr opens)
  | @listed blanks list after areBlanks notEmpty areNames noBracket =>
    have front : (blanks ++ (('[' : CodeUnit) :: (list ++ [(']' : CodeUnit)]))).OneLine := by
      refine areBlanks.isOneLine.append (List.forall_mem_cons.mpr ⟨by decide, ?_⟩)
      exact Text.OneLine.append (areOneLine list rfl) (by decide)
    have grouped : text ++ below =
        blanks ++ (('[' : CodeUnit) :: (list ++ [(']' : CodeUnit)])) ++ after := by simp [whole]
    obtain ⟨behind, rfl, rfl⟩ := closes.exists_of_append front grouped
    have read := Ends.listed areBlanks notEmpty areNames
      fun opens => noBracket ((opensBracket_append_iff closes).mpr opens)
    simpa using read

/-- What follows a keyword on a line can be read also with what stands below the line; only the
next-line words may then belong to the directive that did not belong to it before. -/
theorem Follows.exists_append {enables : Bool} {written : Written}
    (follows : Follows enables text written) :
    ∃ other, Follows enables (text ++ below) other ∧
      (other.nextLine = written.nextLine → other = written) := by
  cases follows with
  | nextLine ends =>
    rw [List.append_assoc]
    exact ⟨_, .nextLine (ends.append closes), fun _ => rfl⟩
  | range ends noNextLine =>
    by_cases limited : ∃ after names length,
        text ++ below = nextLineSuffix ++ after ∧ Ends after names length
    · obtain ⟨after, names, length, whole, inner⟩ := limited
      rw [whole]
      exact ⟨_, .nextLine inner, fun same => by cases same⟩
    · exact ⟨_, .range (ends.append closes) fun after whole names length inner =>
        limited ⟨after, names, length, whole, inner⟩, fun _ => rfl⟩

theorem Follows.of_append {enables : Bool} {written : Written}
    (follows : Follows enables (text ++ below) written) (onOneLine : written.OnOneLine) :
    Follows enables text written := by
  generalize whole : text ++ below = all at follows
  cases follows with
  | nextLine ends =>
    obtain ⟨behind, rfl, rfl⟩ := closes.exists_of_append (by decide) whole
    exact .nextLine (ends.of_append closes onOneLine)
  | range ends noNextLine =>
    subst whole
    refine .range (ends.of_append closes onOneLine) fun after same names length inner => ?_
    exact noNextLine (after ++ below) (by rw [same, List.append_assoc]) _ _ (inner.append closes)

/-- A directive on a line can be read also with what stands below the line. -/
theorem exists_written?_append {written : Written} (found : written? text = some written) :
    ∃ other, written? (text ++ below) = some other ∧
      (other.nextLine = written.nextLine → other = written) := by
  obtain ⟨blanks, enables, rest, inner, areBlanks, rfl, follows, rfl⟩ :=
    (written?_eq_some_iff _ _).mp found
  obtain ⟨other, otherFollows, same⟩ := follows.exists_append closes
  refine ⟨other.behind _, (written?_eq_some_iff _ _).mpr ⟨blanks, enables, rest ++ below, other,
    areBlanks, List.append_assoc _ _ _, otherFollows, rfl⟩, fun sameLine => ?_⟩
  rw [same sameLine]

/-- A directive with its names on one line is read on the line by itself. -/
theorem written?_of_append {written : Written} (found : written? (text ++ below) = some written)
    (onOneLine : written.OnOneLine) : written? text = some written := by
  obtain ⟨blanks, enables, rest, inner, areBlanks, whole, follows, rfl⟩ :=
    (written?_eq_some_iff _ _).mp found
  obtain ⟨behind, rfl, rfl⟩ := closes.exists_of_append (isOneLine_head areBlanks enables) whole
  exact (written?_eq_some_iff _ _).mpr ⟨blanks, enables, behind, inner, areBlanks, rfl,
    follows.of_append closes onOneLine, rfl⟩

/-- Whether a directive is read on a line can be seen without what stands below the line. -/
theorem written?_append_eq (onOneLine : ∀ written ∈ written? (text ++ below), written.OnOneLine) :
    written? (text ++ below) = written? text := by
  cases found : written? (text ++ below) with
  | some written => exact (written?_of_append closes found (onOneLine written found)).symm
  | none =>
    refine (Option.eq_none_iff_forall_ne_some.mpr fun written alone => ?_).symm
    obtain ⟨other, further, _⟩ := exists_written?_append closes alone
    cases found.symm.trans further

end Below

/-! ### What belongs to a directive -/

/-- What belongs to a directive behind its keyword are units that stand there. -/
theorem Ends.bounded {text : Text} {names : Option Text} {length : Nat}
    (ends : Ends text names length) : length ≤ text.length ∧ ∀ list ∈ names, list ⊆ text := by
  cases ends with
  | bare => exact ⟨Nat.zero_le _, by rintro list ⟨⟩⟩
  | @listed blanks names after =>
    refine ⟨?_, ?_⟩
    · simp only [List.length_append, List.length_cons]
      omega
    · rintro list ⟨⟩ unit member
      simp [member]

theorem Follows.bounded {enables : Bool} {text : Text} {written : Written}
    (follows : Follows enables text written) :
    written.length ≤ text.length ∧ ∀ list ∈ written.names, list ⊆ text := by
  cases follows with
  | nextLine ends =>
    obtain ⟨fits, areUnits⟩ := ends.bounded
    refine ⟨?_, fun list isList => List.subset_append_of_subset_right _ (areUnits list isList)⟩
    rw [List.length_append]
    exact Nat.add_le_add_left fits _
  | range ends => exact ends.bounded

theorem bounded_of_written {text : Text} {written : Written}
    (found : written? text = some written) :
    written.length ≤ text.length ∧ ∀ list ∈ written.names, list ⊆ text := by
  obtain ⟨blanks, enables, rest, inner, _, rfl, follows, rfl⟩ := (written?_eq_some_iff _ _).mp found
  obtain ⟨fits, areUnits⟩ := follows.bounded
  refine ⟨?_, fun list isList => List.subset_append_of_subset_right _ (areUnits list isList)⟩
  rw [List.length_append]
  exact Nat.add_le_add_left fits _

theorem onOneLine_of_written {text : Text} (isOneLine : text.OneLine) {written : Written}
    (found : written? text = some written) : written.OnOneLine := fun names isNames unit member =>
  isOneLine unit ((bounded_of_written found).2 names isNames member)

/-! ### The walk along a line -/

/-- A unit that ends a line begins no directive and belongs to no word. -/
theorem writtenFrom_break {unit : CodeUnit} (isBreak : unit = 0x0A ∨ unit = 0x0D) (position : Nat)
    (inWord : Bool) (below : Text) :
    writtenFrom position inWord 0 (unit :: below) = writtenFrom (position + 1) false 0 below := by
  have none : written? (unit :: below) = none := by
    refine Option.eq_none_iff_forall_ne_some.mpr fun written found => ?_
    obtain ⟨rest, whole⟩ := (startsWith_iff _ _).mp (startsWith_of_written _ _ found)
    have first : unit = ('r' : CodeUnit) := List.head_eq_of_cons_eq whole
    rcases isBreak with rfl | rfl <;> exact absurd first (by decide)
  have noWord : unit.isWordUnit = false := by rcases isBreak with rfl | rfl <;> decide
  rw [writtenFrom, none, ite_self, noWord]

theorem writtenFrom_newline (position : Nat) (inWord : Bool) (newline : Newline) (below : Text) :
    writtenFrom position inWord 0 (newline.text ++ below) =
      writtenFrom (position + newline.text.length) false 0 below := by
  cases newline with
  | lf => exact writtenFrom_break (Or.inl rfl) position inWord below
  | cr => exact writtenFrom_break (Or.inr rfl) position inWord below
  | crlf =>
    refine (writtenFrom_break (Or.inr rfl) position inWord (0x0A :: below)).trans ?_
    exact writtenFrom_break (Or.inl rfl) (position + 1) false below

theorem writtenFrom_add (count position : Nat) (inWord : Bool) (skipped : Nat) (text : Text) :
    writtenFrom (count + position) inWord skipped text =
      (writtenFrom position inWord skipped text).map fun found => (count + found.1, found.2) := by
  fun_induction writtenFrom position inWord skipped text with
  | case1 => simp only [writtenFrom, List.map_nil]
  | case2 position inWord skipped unit rest inductionHypothesis =>
    rw [writtenFrom, Nat.add_assoc, inductionHypothesis]
  | case3 position inWord unit rest written here inductionHypothesis =>
    rw [writtenFrom, here, Nat.add_assoc, List.map_cons]
    exact congrArg _ inductionHypothesis
  | case4 position inWord unit rest here inductionHypothesis =>
    rw [writtenFrom, here, Nat.add_assoc]
    exact inductionHypothesis

/-- Directives with their names on one line are found on a line as if nothing stood below it, and
the walk goes on behind the ending of the line as it would begin there. -/
theorem writtenFrom_line {position : Nat} {inWord : Bool} {skipped : Nat} {text : Text}
    {newline : Newline} {below : Text} (fits : skipped ≤ text.length)
    (onOneLine : ∀ found ∈ writtenFrom position inWord skipped (text ++ (newline.text ++ below)),
      found.2.OnOneLine) :
    writtenFrom position inWord skipped (text ++ (newline.text ++ below)) =
      writtenFrom position inWord skipped text ++
        writtenFrom (position + text.length + newline.text.length) false 0 below := by
  have closes := newline.closesLine below
  induction text generalizing position inWord skipped with
  | nil =>
    obtain rfl := Nat.le_zero.mp fits
    rw [List.nil_append, writtenFrom_newline]
    simp [writtenFrom]
  | cons unit rest inductionHypothesis =>
    have behind : position + (unit :: rest).length = position + 1 + rest.length := by
      rw [List.length_cons]
      omega
    rw [behind]
    rw [List.cons_append] at onOneLine ⊢
    cases skipped with
    | succ skipped => exact inductionHypothesis (Nat.le_of_succ_le_succ fits) onOneLine
    | zero =>
      cases inWord with
      | true => exact inductionHypothesis (Nat.zero_le _) onOneLine
      | false =>
        have same : written? (unit :: (rest ++ (newline.text ++ below))) =
            written? (unit :: rest) := by
          rw [← List.cons_append]
          refine written?_append_eq closes fun written found => onOneLine (position, written) ?_
          rw [writtenFrom, if_neg Bool.false_ne_true, ← List.cons_append, found]
          exact List.mem_cons_self
        rw [writtenFrom, if_neg Bool.false_ne_true, same] at onOneLine ⊢
        rw [writtenFrom.eq_3 position false unit rest, if_neg Bool.false_ne_true]
        cases found : written? (unit :: rest) with
        | none =>
          rw [found] at onOneLine
          exact inductionHypothesis (Nat.zero_le _) onOneLine
        | some written =>
          rw [found] at onOneLine
          have fitsRest : written.length - 1 ≤ rest.length :=
            Nat.sub_le_of_le_add (bounded_of_written found).1
          exact congrArg _ (inductionHypothesis fitsRest (List.forall_mem_cons.mp onOneLine).2)

/-- The directives on a line, whatever checks they name, at their places in the text. -/
def allOn (line : Line) : List (Nat × Written) := writtenFrom line.start false 0 line.text

theorem writtenFrom_parts {parts : List (Text × Option Newline)} (areLines : AreLines parts)
    (start : Nat)
    (onOneLine : ∀ found ∈ writtenFrom start false 0 (parts.flatMap partText), found.2.OnOneLine) :
    writtenFrom start false 0 (parts.flatMap partText) =
      (placeLines start parts).flatMap allOn := by
  induction areLines generalizing start with
  | @last text =>
    have alone : [(text, none)].flatMap partText = text := by simp [partText]
    rw [alone, placeLines, placeLines, List.flatMap_singleton]
    rfl
  | @cons text newline next rest _ _ _ inductionHypothesis =>
    have whole : ((text, some newline) :: next :: rest).flatMap partText =
        text ++ (newline.text ++ (next :: rest).flatMap partText) := by
      rw [List.flatMap_cons, partText, List.append_assoc]
      rfl
    rw [whole] at onOneLine ⊢
    have walk := writtenFrom_line (Nat.zero_le _) onOneLine
    rw [walk] at onOneLine ⊢
    have placed : placeLines start ((text, some newline) :: next :: rest) =
        ⟨start, text, some newline⟩ ::
          placeLines (start + text.length + newline.text.length) (next :: rest) := by
      rw [placeLines, Line.fullText, List.length_append, ← Nat.add_assoc]
      rfl
    rw [inductionHypothesis _ (List.forall_mem_append.mp onOneLine).2, placed, List.flatMap_cons]
    rfl

/-- A directive as it counts for a check, if it applies to it. -/
def counted? (check : Text) : Nat × Written → Option Directive := fun (index, written) =>
  if written.appliesTo check then some ⟨index, written.enables, written.nextLine⟩ else none

theorem filterMap_allOn (line : Line) (check : Text) :
    (allOn line).filterMap (counted? check) =
      (find line.text check).map fun directive =>
        { directive with index := line.start + directive.index } := by
  have moved : allOn line =
      (all line.text).map fun found => (line.start + found.1, found.2) :=
    writtenFrom_add line.start 0 false 0 line.text
  have found : find line.text check = (all line.text).filterMap (counted? check) := rfl
  rw [moved, found, List.filterMap_map, List.map_filterMap]
  congr 1
  funext ⟨index, written⟩
  simp only [Function.comp, counted?]
  split <;> rfl

/-- Directives with their names on one line are those of the lines, each at its place. -/
theorem find_eq_findByLine {content : Text} (onOneLine : ∀ found ∈ all content, found.2.OnOneLine)
    (check : Text) : find content check = findByLine content check := by
  have whole : all content = (Lines.ofText content).all.flatMap allOn := by
    have walk := writtenFrom_parts (areLines_physicalLines content) 0
    rw [flatMap_physicalLines] at walk
    exact walk onOneLine
  calc find content check
      = (all content).filterMap (counted? check) := rfl
    _ = (Lines.ofText content).all.flatMap fun line => (allOn line).filterMap (counted? check) := by
        rw [whole, List.filterMap_flatMap]
    _ = findByLine content check := by simp only [filterMap_allOn, findByLine]

/-- A directive that is found on a line is read in the text at its place with nothing of what
stands below the line. -/
theorem exists_of_mem_findByLine {content check : Text} {directive : Directive}
    (member : directive ∈ findByLine content check) :
    ∃ text below : Text, ∃ written, content.drop directive.index = text ++ below ∧ text.OneLine ∧
      below.ClosesLine ∧ written? text = some written ∧ directive.nextLine = written.nextLine := by
  obtain ⟨line, isLine, onLine⟩ := List.mem_flatMap.mp member
  obtain ⟨inner, isInner, rfl⟩ := List.mem_map.mp onLine
  obtain ⟨above, below, whole, place, closes⟩ := Lines.exists_of_mem content line isLine
  obtain ⟨written, isWritten, -, -, nextLine⟩ := (mem_find_iff _ _ _).mp isInner
  have inside : inner.index ≤ line.text.length :=
    Nat.le_of_lt (index_lt_of_mem_find _ _ _ isInner)
  refine ⟨line.text.drop inner.index, below, written, ?_, fun unit isUnit =>
    Lines.isOneLine_of_mem isLine unit (List.mem_of_mem_drop isUnit), closes,
    (written_of_mem_all isWritten).2, nextLine⟩
  dsimp only
  rw [whole, ← place, List.drop_length_add_append, List.drop_append_of_le_length inside]

theorem Written.exists_appliesTo (written : Written) : ∃ check, written.appliesTo check = true := by
  unfold appliesTo
  cases written.names with
  | none => exact ⟨[], rfl⟩
  | some names =>
    obtain ⟨first, others, split⟩ := List.exists_cons_of_ne_nil (Text.splitAt_ne_nil ',' names)
    exact ⟨first.trim, by simp [split]⟩

/-- The directives of a text are those of its lines, each at its place, exactly if each of them has
its names on one line. -/
theorem find_eq_findByLine_iff (content : Text) :
    (∀ check, find content check = findByLine content check) ↔
      ∀ found ∈ all content, found.2.OnOneLine := by
  refine ⟨fun same => ?_, find_eq_findByLine⟩
  rintro ⟨index, written⟩ member
  obtain ⟨check, applies⟩ := written.exists_appliesTo
  have isFound : (⟨index, written.enables, written.nextLine⟩ : Directive) ∈ find content check :=
    (mem_find_iff _ _ _).mpr ⟨written, member, applies, rfl, rfl⟩
  rw [same check] at isFound
  obtain ⟨text, below, alone, whole, isOneLine, closes, found, nextLine⟩ :=
    exists_of_mem_findByLine isFound
  obtain ⟨-, here⟩ := written_of_mem_all member
  obtain ⟨other, further, sameDirective⟩ := exists_written?_append closes found
  rw [whole, further] at here
  cases here
  exact sameDirective nextLine ▸ onOneLine_of_written isOneLine found

/-- A list of names that goes over a carriage return makes a directive of a text, though none of its
lines has one. -/
theorem find_ne_findByLine_listOverReturn :
    let content : Text := "# rapids-pre-commit-hooks: disable[verify-x,\rverify-y]\nbad\n"
    find content "verify-x" = [⟨2, false, false⟩] ∧ findByLine content "verify-x" = [] := by
  decide +kernel

end Directive

end SourceLint
