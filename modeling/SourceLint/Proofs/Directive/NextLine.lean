/-
This file says when the words that limit a directive to the next line belong to it: exactly if what
follows them may end a directive. Otherwise the directive is malformed, but its keyword still ends
at a word boundary with no bracket behind it, so that it is read as a directive of its own. Since no
names belong to that one it switches every check, from its place on.
-/
import Mathlib.Tactic.ByContra
import SourceLint.Proofs.Directive.Scan

namespace SourceLint.Directive

/-- A directive may begin at a position of a text with a marker and a keyword, and `rest` stands
behind the keyword. -/
structure KeywordAt (content : Text) (index : Nat) (enables : Bool) (rest : Text) : Prop where
  boundary : AtBoundary false content index
  head_eq : ∃ blanks, AreBlanks blanks ∧ content.drop index = head blanks enables ++ rest

/-- What a text begins with keeps a directive from ending before it: further units of a word, or a
bracket, unless that opens the one list of names, which is not empty and is closed before the end of
the line. -/
def Malformed (text : Text) : Prop :=
  ¬EndsWord text ∨
    OpensBracket text ∧ ∀ blanks names after : Text, AreBlanks blanks → names ≠ [] →
      (∀ unit ∈ names, isNameUnit unit = true) →
      text = blanks ++ ('[' : CodeUnit) :: (names ++ (']' : CodeUnit) :: after) →
      OpensBracket after

theorem malformed_iff (text : Text) :
    Malformed text ↔ ∀ names length, ¬Ends text names length := by
  constructor
  · rintro malformed names length ends
    cases ends with
    | bare endsWord noBracket =>
      rcases malformed with inWord | ⟨opens, _⟩
      · exact inWord endsWord
      · exact noBracket opens
    | listed areBlanks notEmpty areNames noBracket =>
      rcases malformed with inWord | ⟨_, further⟩
      · exact inWord (areBlanks.opensBracket _).endsWord
      · exact noBracket (further _ _ _ areBlanks notEmpty areNames rfl)
  · intro noEnd
    by_cases endsWord : EndsWord text
    · refine Or.inr ⟨?_, ?_⟩
      · by_contra noBracket
        exact noEnd _ _ (.bare endsWord noBracket)
      · rintro blanks names after areBlanks notEmpty areNames rfl
        by_contra noBracket
        exact noEnd _ _ (.listed areBlanks notEmpty areNames noBracket)
    · exact Or.inl endsWord

/-- Before the next-line words a keyword ends as it is. -/
theorem ends_nextLineSuffix (after : Text) : Ends (nextLineSuffix ++ after) none 0 := by
  refine .bare ?_ ?_
  · rintro unit ⟨⟩
    decide
  · rintro ⟨blanks, rest, areBlanks, same⟩
    cases blanks with
    | nil =>
      have first := congrArg List.head? same
      exact absurd (Option.some.inj first) (by decide)
    | cons blank others =>
      have first := congrArg List.head? same
      have isBlank := areBlanks blank List.mem_cons_self
      rw [List.cons_append, List.head?_cons] at first
      rw [← Option.some.inj first] at isBlank
      exact absurd isBlank (by decide)

theorem follows_of_malformed (enables : Bool) {after : Text} (malformed : Malformed after) :
    Follows enables (nextLineSuffix ++ after) ⟨0, enables, false, none⟩ := by
  refine .range (ends_nextLineSuffix after) fun other same => ?_
  rw [← List.append_cancel_left same]
  exact (malformed_iff after).mp malformed

/-- The next-line words belong to a directive exactly if what follows them may end it. -/
theorem Follows.nextLine_iff {enables : Bool} {rest : Text} {written : Written}
    (follows : Follows enables rest written) :
    written.nextLine = true ↔ ∃ after, rest = nextLineSuffix ++ after ∧ ¬Malformed after := by
  cases follows with
  | @nextLine after names length ends =>
    exact iff_of_true rfl ⟨after, rfl, fun malformed => (malformed_iff after).mp malformed _ _ ends⟩
  | range _ noNextLine =>
    refine iff_of_false Bool.false_ne_true ?_
    rintro ⟨after, same, wellFormed⟩
    exact wellFormed ((malformed_iff after).mpr (noNextLine after same))

theorem Follows.enables_eq {enables : Bool} {rest : Text} {written : Written}
    (follows : Follows enables rest written) : written.enables = enables := by
  cases follows <;> rfl

/-- How the directives of a text for a check stand to the next-line words. -/
structure ReadsNextLine (content check : Text) : Prop where
  /-- A directive that is found governs the next line exactly if the next-line words are behind its
  keyword and what follows them is not malformed; else it governs all that follows. -/
  nextLine_iff : ∀ directive ∈ find content check, ∃ rest,
    KeywordAt content directive.index directive.enables rest ∧
      (directive.nextLine = true ↔ ∃ after, rest = nextLineSuffix ++ after ∧ ¬Malformed after)
  /-- A malformed next-line directive that does not begin within another directive governs all that
  follows, for each check. -/
  malformed_mem : ∀ index enables after,
    KeywordAt content index enables (nextLineSuffix ++ after) → Malformed after →
      (∀ found ∈ all content, ¬Covers found index) → ⟨index, enables, false⟩ ∈ find content check

theorem readsNextLine_find (content check : Text) : ReadsNextLine content check where
  nextLine_iff := by
    intro directive member
    obtain ⟨written, isWritten, _, enables, nextLine⟩ := (mem_find_iff _ _ _).mp member
    obtain ⟨boundary, here⟩ := written_of_mem_all isWritten
    obtain ⟨blanks, word, rest, inner, areBlanks, whole, follows, rfl⟩ :=
      (written?_eq_some_iff _ _).mp here
    have sameWord : directive.enables = word := enables.trans follows.enables_eq
    have sameLine : directive.nextLine = inner.nextLine := nextLine
    rw [sameWord, sameLine]
    exact ⟨rest, ⟨boundary, blanks, areBlanks, whole⟩, follows.nextLine_iff⟩
  malformed_mem := by
    rintro index enables after ⟨boundary, blanks, areBlanks, whole⟩ malformed uncovered
    have here : written? (content.drop index) =
        some ((⟨0, enables, false, none⟩ : Written).behind (head blanks enables).length) :=
      (written?_eq_some_iff _ _).mpr ⟨blanks, enables, nextLineSuffix ++ after, _, areBlanks, whole,
        follows_of_malformed enables malformed, rfl⟩
    rw [← Nat.zero_add index] at uncovered
    have isWritten := mem_writtenFrom_of_written boundary here (Nat.zero_le _) uncovered
    rw [Nat.zero_add] at isWritten
    exact (mem_find_iff _ _ _).mpr ⟨_, isWritten, rfl, rfl, rfl⟩

/-- A next-line directive whose list of names is not closed disables a check for all that follows,
also a check that it does not name. -/
theorem find_unclosedNextLine :
    let content : Text := "# rapids-pre-commit-hooks: disable-next-line[verify-y\nbad\nworse\n"
    content.drop 2 = head " " false ++ (nextLineSuffix ++ "[verify-y\nbad\nworse\n") ∧
      find content "verify-x" = [⟨2, false, false⟩] := by
  decide

end SourceLint.Directive
