/-
This file says what a directive is, apart from how it is read. Its head goes from the marker up to
the keyword. Behind the keyword, or behind the next-line words after it, stands no word unit and at
most one list of names in brackets. The next-line words belong to the directive if what follows them
may end one; else they are nothing but what follows the keyword.
-/
import SourceLint.Proofs.Directive.Positions
import SourceLint.Proofs.Text.Cut

namespace SourceLint.Directive

/-- The units of a text are blanks. -/
def AreBlanks (text : Text) : Prop := ∀ unit ∈ text, unit.isSpaceOrTab = true

/-- The first unit of a text, if there is one, belongs to no word. -/
def EndsWord (text : Text) : Prop := ∀ unit ∈ text.head?, unit.isWordUnit = false

/-- A bracket opens behind blanks. -/
def OpensBracket (text : Text) : Prop :=
  ∃ blanks rest : Text, AreBlanks blanks ∧ text = blanks ++ ('[' : CodeUnit) :: rest

/-- What may stand behind a keyword, with the names that it gives and the units that belong to the
directive: no list and no bracket, or one list of names and no bracket behind it. -/
inductive Ends : Text → Option Text → Nat → Prop
  | bare {text : Text} (endsWord : EndsWord text) (noBracket : ¬OpensBracket text) :
      Ends text none 0
  | listed {blanks names after : Text} (areBlanks : AreBlanks blanks) (notEmpty : names ≠ [])
      (areNames : ∀ unit ∈ names, isNameUnit unit = true) (noBracket : ¬OpensBracket after) :
      Ends (blanks ++ ('[' : CodeUnit) :: (names ++ (']' : CodeUnit) :: after)) (some names)
        (blanks.length + names.length + 2)

/-- What stands behind the keyword of a directive. -/
inductive Follows (enables : Bool) : Text → Written → Prop
  | nextLine {after : Text} {names : Option Text} {length : Nat} (ends : Ends after names length) :
      Follows enables (nextLineSuffix ++ after)
        ⟨nextLineSuffix.length + length, enables, true, names⟩
  | range {text : Text} {names : Option Text} {length : Nat} (ends : Ends text names length)
      (noNextLine : ∀ after, text = nextLineSuffix ++ after →
        ∀ names length, ¬Ends after names length) :
      Follows enables text ⟨length, enables, false, names⟩

/-- The keyword of a directive. -/
def keyword (enables : Bool) : Text := if enables then "enable" else "disable"

/-- A directive up to the end of its keyword. -/
def head (blanks : Text) (enables : Bool) : Text := marker ++ ":" ++ blanks ++ keyword enables

/-! ### Brackets -/

theorem opensBracket_iff (text : Text) : opensBracket text = true ↔ OpensBracket text := by
  rw [opensBracket, beq_iff_eq, List.head?_eq_some_iff]
  constructor
  · rintro ⟨rest, behind⟩
    refine ⟨text.takeWhile CodeUnit.isSpaceOrTab, rest, fun unit => List.mem_takeWhile_imp, ?_⟩
    rw [← behind, List.takeWhile_append_dropWhile]
  · rintro ⟨blanks, rest, areBlanks, rfl⟩
    refine ⟨rest, ?_⟩
    rw [List.dropWhile_append_of_pos areBlanks, List.dropWhile_cons_of_neg (by decide)]

theorem beginsWord_eq_false_iff (text : Text) : beginsWord text = false ↔ EndsWord text := by
  cases text with
  | nil => simp [beginsWord, EndsWord]
  | cons unit rest => simp [beginsWord, EndsWord]

theorem bracketed?_listed {blanks names after : Text} (areBlanks : AreBlanks blanks)
    (notEmpty : names ≠ []) (areNames : ∀ unit ∈ names, isNameUnit unit = true) :
    bracketed? (blanks ++ ('[' : CodeUnit) :: (names ++ (']' : CodeUnit) :: after)) =
      some (names, blanks.length + names.length + 2) := by
  have stops : ∀ unit ∈ (('[' : CodeUnit) :: (names ++ (']' : CodeUnit) :: after)).head?,
      ¬unit.isSpaceOrTab = true := by
    rintro unit ⟨⟩
    decide
  have closes : ∀ unit ∈ ((']' : CodeUnit) :: after).head?, ¬isNameUnit unit = true := by
    rintro unit ⟨⟩
    decide
  have opened : (blanks ++ ('[' : CodeUnit) :: (names ++ (']' : CodeUnit) :: after)).dropWhile
      CodeUnit.isSpaceOrTab = ('[' : CodeUnit) :: (names ++ (']' : CodeUnit) :: after) := by
    rw [List.dropWhile_append_of_pos areBlanks, List.dropWhile_cons_of_neg (by decide)]
  have behind : (names ++ (']' : CodeUnit) :: after).dropWhile isNameUnit =
      (']' : CodeUnit) :: after := by
    rw [List.dropWhile_append_of_pos areNames, List.dropWhile_cons_of_neg (by decide)]
  rw [bracketed?, opened, Text.takeWhile_append_of_stops areBlanks stops]
  dsimp only
  rw [behind, Text.takeWhile_append_of_stops areNames closes]
  simp [notEmpty]

theorem exists_of_bracketed? {text names : Text} {length : Nat}
    (found : bracketed? text = some (names, length)) :
    ∃ blanks after : Text, AreBlanks blanks ∧ names ≠ [] ∧
      (∀ unit ∈ names, isNameUnit unit = true) ∧
      text = blanks ++ ('[' : CodeUnit) :: (names ++ (']' : CodeUnit) :: after) ∧
      length = blanks.length + names.length + 2 := by
  have whole := List.takeWhile_append_dropWhile (p := CodeUnit.isSpaceOrTab) (l := text)
  rw [bracketed?] at found
  split at found
  case h_1 unit rest behind =>
    rw [behind] at whole
    dsimp only at found
    split at found
    case isTrue isList =>
      cases found
      rw [Bool.and_eq_true, Bool.and_eq_true, decide_eq_true_eq, beq_iff_eq,
        List.head?_eq_some_iff] at isList
      obtain ⟨⟨rfl, notEmpty⟩, after, closed⟩ := isList
      refine ⟨text.takeWhile CodeUnit.isSpaceOrTab, after, fun unit => List.mem_takeWhile_imp, ?_,
        fun unit => List.mem_takeWhile_imp, ?_, rfl⟩
      · simpa using notEmpty
      · rw [← closed, List.takeWhile_append_dropWhile, whole]
    case isFalse => cases found
  case h_2 => cases found

theorem AreBlanks.eq_or_eq {blanks : Text} (areBlanks : AreBlanks blanks) {unit : CodeUnit}
    (member : unit ∈ blanks) : unit = 0x20 ∨ unit = 0x09 := by
  simpa only [CodeUnit.isSpaceOrTab, Bool.or_eq_true, beq_iff_eq] using areBlanks unit member

theorem AreBlanks.opensBracket {blanks : Text} (areBlanks : AreBlanks blanks) (rest : Text) :
    OpensBracket (blanks ++ ('[' : CodeUnit) :: rest) :=
  ⟨blanks, rest, areBlanks, rfl⟩

/-- What opens a bracket begins with no word unit. -/
theorem OpensBracket.endsWord {text : Text} (opens : OpensBracket text) : EndsWord text := by
  obtain ⟨blanks, rest, areBlanks, rfl⟩ := opens
  cases blanks with
  | nil =>
    rintro unit ⟨⟩
    decide
  | cons blank others =>
    rintro unit ⟨⟩
    rcases areBlanks.eq_or_eq List.mem_cons_self with rfl | rfl <;> decide

theorem drop_listed (blanks names after : Text) :
    (blanks ++ ('[' : CodeUnit) :: (names ++ (']' : CodeUnit) :: after)).drop
      (blanks.length + names.length + 2) = after := by
  have front : blanks ++ ('[' : CodeUnit) :: (names ++ (']' : CodeUnit) :: after) =
      blanks ++ ('[' : CodeUnit) :: (names ++ [(']' : CodeUnit)]) ++ after := by simp
  rw [front, List.drop_left']
  simp only [List.length_append, List.length_cons, List.length_nil]
  omega

/-! ### What stands behind a keyword -/

theorem ending?_eq_some_iff (text : Text) (names : Option Text) (length : Nat) :
    ending? text = some (names, length) ↔ Ends text names length := by
  constructor
  · intro found
    rw [ending?] at found
    split at found
    case isTrue => cases found
    case isFalse noWord =>
      split at found
      case h_1 list listLength isList =>
        obtain ⟨blanks, after, areBlanks, notEmpty, areNames, rfl, rfl⟩ :=
          exists_of_bracketed? isList
        rw [drop_listed, Option.ite_none_left_eq_some, opensBracket_iff] at found
        obtain ⟨noBracket, same⟩ := found
        cases same
        exact .listed areBlanks notEmpty areNames noBracket
      case h_2 noList =>
        rw [Option.ite_none_left_eq_some, opensBracket_iff] at found
        obtain ⟨noBracket, same⟩ := found
        cases same
        exact .bare ((beginsWord_eq_false_iff text).mp (Bool.not_eq_true _ ▸ noWord)) noBracket
  · intro ends
    cases ends with
    | bare endsWord noBracket =>
      have noList : bracketed? text = none := by
        refine Option.eq_none_iff_forall_not_mem.mpr fun ⟨list, listLength⟩ isList => noBracket ?_
        obtain ⟨blanks, after, areBlanks, _, _, rfl, _⟩ := exists_of_bracketed? isList
        exact areBlanks.opensBracket _
      rw [← opensBracket_iff] at noBracket
      rw [ending?, (beginsWord_eq_false_iff text).mpr endsWord, noList]
      simp only [Bool.false_eq_true, if_false, noBracket]
    | @listed blanks list after areBlanks notEmpty areNames noBracket =>
      have noWord := (beginsWord_eq_false_iff _).mpr
        (areBlanks.opensBracket (list ++ (']' : CodeUnit) :: after)).endsWord
      rw [← opensBracket_iff] at noBracket
      rw [ending?, noWord, bracketed?_listed areBlanks notEmpty areNames]
      simp only [Bool.false_eq_true, if_false, drop_listed, noBracket]

theorem Ends.unique {text : Text} {names otherNames : Option Text} {length otherLength : Nat}
    (first : Ends text names length) (second : Ends text otherNames otherLength) :
    names = otherNames ∧ length = otherLength := by
  rw [← ending?_eq_some_iff] at first second
  exact Prod.mk.inj (Option.some.inj (first.symm.trans second))

theorem ending?_eq_none_iff (text : Text) :
    ending? text = none ↔ ∀ names length, ¬Ends text names length := by
  simp only [← ending?_eq_some_iff, Option.eq_none_iff_forall_ne_some, Prod.forall]

theorem startsWith_iff (text beginning : Text) :
    text.startsWith beginning = true ↔ ∃ rest, text = beginning ++ rest := by
  rw [Text.startsWith, List.isPrefixOf_iff_prefix]
  exact exists_congr fun rest => eq_comm

theorem afterKeyword?_eq_some_iff (enables : Bool) (text : Text) (written : Written) :
    afterKeyword? enables text = some written ↔ Follows enables text written := by
  have otherwise (noNextLine : ∀ after, text = nextLineSuffix ++ after →
        ∀ names length, ¬Ends after names length) :
      ((ending? text).map fun found => (⟨found.2, enables, false, found.1⟩ : Written)) =
        some written ↔ Follows enables text written := by
    constructor
    · intro found
      obtain ⟨⟨names, length⟩, ends, rfl⟩ := Option.map_eq_some_iff.mp found
      exact .range ((ending?_eq_some_iff _ _ _).mp ends) noNextLine
    · rintro (⟨ends⟩ | ⟨ends, _⟩)
      · exact absurd ends (noNextLine _ rfl _ _)
      · rw [(ending?_eq_some_iff _ _ _).mpr ends]
        rfl
  rw [afterKeyword?]
  by_cases starts : text.startsWith nextLineSuffix = true
  · obtain ⟨after, rfl⟩ := (startsWith_iff _ _).mp starts
    rw [if_pos starts, List.drop_left]
    cases ends : ending? after with
    | none =>
      refine otherwise fun other same => ?_
      rw [← List.append_cancel_left same]
      exact (ending?_eq_none_iff after).mp ends
    | some found =>
      obtain ⟨names, length⟩ := found
      rw [ending?_eq_some_iff] at ends
      constructor
      · rintro ⟨⟩
        exact .nextLine ends
      · intro follows
        generalize whole : nextLineSuffix ++ after = text at follows
        cases follows with
        | nextLine others =>
          rw [List.append_cancel_left whole] at ends
          obtain ⟨rfl, rfl⟩ := ends.unique others
          rfl
        | range _ noNextLine => exact absurd ends (noNextLine after whole.symm _ _)
  · rw [if_neg starts]
    exact otherwise fun after same => absurd ((startsWith_iff _ _).mpr ⟨after, same⟩) starts

/-! ### The head of a directive -/

theorem head_append (blanks rest : Text) (enables : Bool) :
    head blanks enables ++ rest = marker ++ ":" ++ (blanks ++ (keyword enables ++ rest)) := by
  simp only [head, List.append_assoc]

theorem keyword_stops (enables : Bool) (rest : Text) :
    ∀ unit ∈ (keyword enables ++ rest).head?, ¬unit.isSpaceOrTab = true := by
  cases enables <;> rintro unit ⟨⟩ <;> decide

/-- What is read of a keyword: the word at the start of a text, if it is that of a directive. -/
theorem startsWith_keyword_append (enables word : Bool) (rest : Text) :
    (keyword enables ++ rest).startsWith (keyword word) = (enables == word) := by
  cases enables <;> cases word
  case false.false | true.true =>
    exact (startsWith_iff _ _).mpr ⟨rest, rfl⟩
  case false.true | true.false => rfl

/-- The directive with more units before what is read of it. -/
def Written.behind (written : Written) (length : Nat) : Written :=
  { written with length := length + written.length }

/-- The directive whose keyword begins a text, with units in front of it. -/
def readKeyword (front : Nat) (text : Text) (enables : Bool) : Option Written :=
  if text.startsWith (keyword enables) then
    (afterKeyword? enables (text.drop (keyword enables).length)).map fun written =>
      written.behind (front + (keyword enables).length)
  else none

/-- The reading of a directive: the marker with its colon, blanks, and one of the two keywords. -/
theorem written?_eq (text : Text) :
    written? text =
      if text.startsWith (marker ++ ":") then
        let afterColon := text.drop (marker.length + 1)
        let front := marker.length + 1 + (afterColon.takeWhile CodeUnit.isSpaceOrTab).length
        let rest := afterColon.drop (afterColon.takeWhile CodeUnit.isSpaceOrTab).length
        (readKeyword front rest true).or (readKeyword front rest false)
      else none := rfl

theorem readKeyword_append (front : Nat) (enables word : Bool) (rest : Text) :
    readKeyword front (keyword enables ++ rest) word =
      if enables = word then
        (afterKeyword? enables rest).map fun written =>
          written.behind (front + (keyword enables).length)
      else none := by
  rw [readKeyword, startsWith_keyword_append]
  by_cases same : enables = word
  · subst same
    rw [if_pos (beq_self_eq_true enables), if_pos rfl, List.drop_left]
  · rw [if_neg same, if_neg (by simpa using same)]

theorem length_head (blanks : Text) (enables : Bool) :
    (head blanks enables).length =
      marker.length + 1 + blanks.length + (keyword enables).length := by
  rw [head, List.length_append, List.length_append, List.length_append]
  rfl

theorem written?_head_append {blanks : Text} (areBlanks : AreBlanks blanks) (enables : Bool)
    (rest : Text) :
    written? (head blanks enables ++ rest) =
      (afterKeyword? enables rest).map fun written =>
        written.behind (head blanks enables).length := by
  have starts : (head blanks enables ++ rest).startsWith (marker ++ ":") = true :=
    (startsWith_iff _ _).mpr ⟨_, head_append blanks rest enables⟩
  have afterColon : (head blanks enables ++ rest).drop (marker.length + 1) =
      blanks ++ (keyword enables ++ rest) := by
    rw [head_append]
    exact List.drop_left' rfl
  rw [written?_eq, if_pos starts, afterColon]
  dsimp only
  rw [Text.takeWhile_append_of_stops areBlanks (keyword_stops enables rest), List.drop_left,
    readKeyword_append, readKeyword_append, length_head]
  cases enables <;> simp

theorem exists_keyword_of_readKeyword {front : Nat} {text : Text} {enables : Bool}
    {written : Written} (found : readKeyword front text enables = some written) :
    ∃ rest, text = keyword enables ++ rest := by
  rw [readKeyword, Option.ite_none_right_eq_some] at found
  exact (startsWith_iff _ _).mp found.1

/-- A directive begins with a head. -/
theorem exists_head_of_written {text : Text} {written : Written}
    (found : written? text = some written) :
    ∃ blanks enables rest, AreBlanks blanks ∧ text = head blanks enables ++ rest := by
  rw [written?_eq, Option.ite_none_right_eq_some] at found
  obtain ⟨starts, read⟩ := found
  obtain ⟨afterColon, rfl⟩ := (startsWith_iff _ _).mp starts
  have behind : (marker ++ ":" ++ afterColon).drop (marker.length + 1) = afterColon :=
    List.drop_left' rfl
  dsimp only at read
  rw [behind, Text.drop_length_takeWhile, Option.or_eq_some_iff] at read
  have split := List.takeWhile_append_dropWhile (p := CodeUnit.isSpaceOrTab) (l := afterColon)
  have areBlanks : AreBlanks (afterColon.takeWhile CodeUnit.isSpaceOrTab) :=
    fun unit => List.mem_takeWhile_imp
  rcases read with isEnable | ⟨_, isDisable⟩
  · obtain ⟨rest, same⟩ := exists_keyword_of_readKeyword isEnable
    exact ⟨_, true, rest, areBlanks, by rw [head_append, ← same, split]⟩
  · obtain ⟨rest, same⟩ := exists_keyword_of_readKeyword isDisable
    exact ⟨_, false, rest, areBlanks, by rw [head_append, ← same, split]⟩

/-- A directive is read where a head stands with what may follow it. -/
theorem written?_eq_some_iff (text : Text) (written : Written) :
    written? text = some written ↔
      ∃ blanks enables rest inner, AreBlanks blanks ∧ text = head blanks enables ++ rest ∧
        Follows enables rest inner ∧ written = inner.behind (head blanks enables).length := by
  constructor
  · intro found
    obtain ⟨blanks, enables, rest, areBlanks, rfl⟩ := exists_head_of_written found
    rw [written?_head_append areBlanks, Option.map_eq_some_iff] at found
    obtain ⟨inner, follows, rfl⟩ := found
    exact ⟨blanks, enables, rest, inner, areBlanks, rfl,
      (afterKeyword?_eq_some_iff _ _ _).mp follows, rfl⟩
  · rintro ⟨blanks, enables, rest, inner, areBlanks, rfl, follows, rfl⟩
    rw [written?_head_append areBlanks, (afterKeyword?_eq_some_iff _ _ _).mpr follows]
    rfl

end SourceLint.Directive
