/-
This file says how a notice is written: with some choice of spaces, with the sign or not, with the
comma or not, and with the second word of the name in one of its two forms. A notice that is read
has been written in such a way, and whatever is so written is read again, with any text behind it.
Since the end of a notice is fixed by its own units, what stands behind it has no influence.
-/
import Mathlib.Data.List.TakeWhile
import SourceLint.Copyright.Notice
import SourceLint.Proofs.Text.Cut

namespace SourceLint

/-! ### Beginnings of texts -/

namespace Text

theorem after?_append (beginning rest : Text) :
    after? beginning (beginning ++ rest) = some rest := by
  have begins : startsWith (beginning ++ rest) beginning = true :=
    List.isPrefixOf_iff_prefix.mpr (List.prefix_append _ _)
  rw [after?, if_pos begins, List.drop_left]

/-- A text does not have a beginning with another first unit. -/
theorem after?_eq_none (unit : CodeUnit) (beginning text : Text)
    (unlike : text.head? ≠ some unit) : after? (unit :: beginning) text = none := by
  rw [after?, if_neg]
  intro begins
  obtain ⟨rest, rfl⟩ := List.isPrefixOf_iff_prefix.mp begins
  exact unlike rfl

/-- A number of spaces. -/
def spaces (count : Nat) : Text := List.replicate count 0x20

end Text

namespace Copyright

/-! ### Spellings -/

/-- How a notice is written, but for its years. -/
structure Spelling where
  /-- The number of spaces before the sign. -/
  gapBefore : Nat
  sign : Bool
  /-- The number of spaces after the sign. -/
  gapAfter : Nat
  comma : Bool
  /-- The number of spaces before the name. -/
  gap : Nat
  /-- The second word of the name is in capitals. -/
  capitals : Bool

namespace Spelling

/-- What is written before the years. -/
def lead (spelling : Spelling) : Text :=
  "Copyright" ++ (Text.spaces spelling.gapBefore ++
    ((if spelling.sign then Text.ofString "(c)" else []) ++ Text.spaces spelling.gapAfter))

/-- The end of the name of the holder. -/
def nameEnd (spelling : Spelling) : Text := if spelling.capitals then "ORPORATION" else "orporation"

/-- What is written after the years. -/
def name (spelling : Spelling) : Text :=
  (if spelling.comma then Text.ofString "," else []) ++
    (Text.spaces spelling.gap ++ ("NVIDIA C" ++ spelling.nameEnd))

end Spelling

namespace Notice

/-- A text of four digits. -/
def IsYear (text : Text) : Prop := text.length = 4 ∧ ∀ unit ∈ text, unit.isDigit = true

/-- The second year with its hyphen, or nothing. -/
def secondYear (notice : Notice) : Text :=
  match notice.lastYear with
  | some year => 0x2D :: year
  | none => []

/-- A text is a notice, from its start to its end. -/
structure Written (notice : Notice) (text : Text) : Prop where
  firstYear : IsYear notice.firstYear
  lastYear : ∀ year, notice.lastYear = some year → IsYear year
  spelling : ∃ spelling : Spelling, spelling.lead.length = notice.lead ∧
    text = spelling.lead ++ (notice.firstYear ++ (notice.secondYear ++ spelling.name))
  length : text.length = notice.length

/-! ### What is written is read -/

theorem skipSpaces_spaces_append (count : Nat) (text : Text) (unlike : text.head? ≠ some 0x20) :
    skipSpaces (Text.spaces count ++ text) = text := by
  induction count with
  | zero =>
    cases text with
    | nil => rfl
    | cons unit rest =>
      exact List.dropWhile_cons_of_neg fun same => unlike (congrArg some (beq_iff_eq.mp same))
  | succ count inductionHypothesis =>
    rw [Text.spaces, List.replicate_succ, List.cons_append, skipSpaces,
      List.dropWhile_cons_of_pos rfl]
    exact inductionHypothesis

theorem IsYear.exists_cons {text : Text} (isYear : IsYear text) :
    ∃ unit rest, text = unit :: rest ∧ unit.isDigit = true := by
  obtain ⟨length, digits⟩ := isYear
  cases text with
  | nil => cases length
  | cons unit rest => exact ⟨unit, rest, rfl, digits unit List.mem_cons_self⟩

/-- Before a year stands no unit of the kinds that are skipped. -/
theorem IsYear.head?_ne {text : Text} (isYear : IsYear text) (rest : Text) (unit : CodeUnit)
    (notDigit : unit.isDigit = false) : (text ++ rest).head? ≠ some unit := by
  obtain ⟨first, others, rfl, isDigit⟩ := isYear.exists_cons
  rintro ⟨⟩
  rw [notDigit] at isDigit
  cases isDigit

theorem year?_append (text rest : Text) (isYear : IsYear text) :
    year? (text ++ rest) = some text := by
  obtain ⟨length, digits⟩ := isYear
  have taken : (text ++ rest).take 4 = text := by rw [← length, List.take_left]
  have holds : (decide (text.length = 4) && text.all CodeUnit.isDigit) = true := by
    rw [Bool.and_eq_true, decide_eq_true_eq, List.all_eq_true]
    exact ⟨length, digits⟩
  rw [year?, taken]
  exact if_pos holds

theorem lead_read (spelling : Spelling) (year rest : Text) (isYear : IsYear year) :
    ∃ afterWord, Text.after? "Copyright" (spelling.lead ++ (year ++ rest)) = some afterWord ∧
      skipSpaces (skip "(c)" (skipSpaces afterWord)) = year ++ rest := by
  have sign : Text.ofString "(c)" = 0x28 :: Text.ofString "c)" := by decide
  refine ⟨_, by rw [Spelling.lead, List.append_assoc, Text.after?_append], ?_⟩
  have notSpace := isYear.head?_ne rest 0x20 (by decide)
  cases spelling.sign with
  | true =>
    rw [if_pos rfl, List.append_assoc, List.append_assoc, skipSpaces_spaces_append _ _
      (by rw [sign, List.cons_append, List.head?_cons]; decide), skip, Text.after?_append,
      Option.getD_some, skipSpaces_spaces_append _ _ notSpace]
  | false =>
    rw [if_neg (by decide), List.nil_append, Text.spaces, Text.spaces,
      List.replicate_append_replicate, ← Text.spaces, skipSpaces_spaces_append _ _ notSpace, skip,
      sign, Text.after?_eq_none _ _ _ (isYear.head?_ne rest 0x28 (by decide)), Option.getD_none]
    exact skipSpaces_spaces_append 0 _ notSpace

theorem afterHolder?_append (spelling : Spelling) (rest : Text) :
    afterHolder? ("NVIDIA C" ++ (spelling.nameEnd ++ rest)) = some rest := by
  rw [afterHolder?, Text.after?_append, Spelling.nameEnd]
  cases spelling.capitals with
  | true => rw [if_pos rfl, Option.bind_eq_bind, Option.bind_some, Text.after?_append]; rfl
  | false =>
    have capitals : Text.ofString "ORPORATION" = 0x4F :: Text.ofString "RPORATION" := by decide
    have small : Text.ofString "orporation" = 0x6F :: Text.ofString "rporation" := by decide
    rw [if_neg (by decide), Option.bind_eq_bind, Option.bind_some, capitals, Text.after?_eq_none]
    · exact Text.after?_append _ _
    · rw [small, List.cons_append, List.head?_cons]
      decide

/-- The name begins with a space or its first letter. -/
theorem head?_name (spelling : Spelling) (text : Text) (unit : CodeUnit)
    (unlike : unit ≠ 0x20 ∧ unit ≠ 0x4E) :
    (Text.spaces spelling.gap ++ ("NVIDIA C" ++ text)).head? ≠ some unit := by
  have nvidia : Text.ofString "NVIDIA C" = 0x4E :: Text.ofString "VIDIA C" := by decide
  rw [nvidia, Text.spaces]
  cases spelling.gap with
  | zero => exact fun same => unlike.2 (Option.some.inj same).symm
  | succ count => exact fun same => unlike.1 (Option.some.inj same).symm

theorem name_read (spelling : Spelling) (rest : Text) :
    afterHolder? (skipSpaces (skip "," (spelling.name ++ rest))) = some rest := by
  have comma : Text.ofString "," = [0x2C] := by decide
  have nvidia : Text.ofString "NVIDIA C" = 0x4E :: Text.ofString "VIDIA C" := by decide
  have skipped : skip "," (spelling.name ++ rest) =
      Text.spaces spelling.gap ++ ("NVIDIA C" ++ (spelling.nameEnd ++ rest)) := by
    rw [Spelling.name, skip]
    simp only [List.append_assoc]
    cases spelling.comma with
    | true => rw [if_pos rfl, Text.after?_append, Option.getD_some]
    | false =>
      rw [if_neg (by decide), List.nil_append, comma,
        Text.after?_eq_none _ _ _ (head?_name spelling _ _ (by decide)), Option.getD_none]
  rw [skipped,
    skipSpaces_spaces_append _ _ (by rw [nvidia, List.cons_append, List.head?_cons]; decide),
    afterHolder?_append]

/-- The name does not look like a second year. -/
theorem secondYear_name (spelling : Spelling) (rest : Text) :
    (Text.after? "-" (spelling.name ++ rest)).bind year? = none := by
  have hyphen : Text.ofString "-" = [0x2D] := by decide
  have comma : Text.ofString "," = [0x2C] := by decide
  rw [hyphen, Text.after?_eq_none, Option.bind_none]
  rw [Spelling.name]
  cases spelling.comma with
  | true =>
    rw [if_pos rfl, comma, List.append_assoc, List.cons_append, List.head?_cons]
    decide
  | false =>
    rw [if_neg (by decide), List.nil_append]
    simp only [List.append_assoc]
    exact head?_name spelling _ _ (by decide)

/-- A second year is read behind its hyphen. -/
theorem secondYear_year (year rest : Text) (isYear : IsYear year) :
    (Text.after? "-" (0x2D :: year ++ rest)).bind year? = some year := by
  have hyphen : Text.ofString "-" = [0x2D] := by decide
  have reads := Text.after?_append [0x2D] (year ++ rest)
  rw [List.singleton_append] at reads
  rw [hyphen, List.cons_append, reads]
  exact year?_append _ _ isYear

/-- A notice is read wherever it is written. -/
theorem Written.read?_append {notice : Notice} {text : Text} (written : notice.Written text)
    (rest : Text) : read? (text ++ rest) = some notice := by
  obtain ⟨isFirst, isLast, ⟨spelling, lead, rfl⟩, length⟩ := written
  obtain ⟨noticeLead, firstYear, lastYear, noticeLength⟩ := notice
  dsimp only at isFirst isLast lead length ⊢
  cases lastYear with
  | none =>
    obtain ⟨afterWord, readsWord, readsSign⟩ :=
      lead_read spelling firstYear (spelling.name ++ rest) isFirst
    simp only [secondYear, List.append_assoc, List.nil_append] at length ⊢
    simp only [read?, readsWord, Option.bind_eq_bind, Option.bind_some, readsSign,
      year?_append _ _ isFirst, List.drop_left, secondYear_name, name_read, Option.pure_def]
    simp only [List.length_append] at length ⊢
    congr 2 <;> omega
  | some year =>
    obtain ⟨afterWord, readsWord, readsSign⟩ :=
      lead_read spelling firstYear (0x2D :: year ++ (spelling.name ++ rest)) isFirst
    have behind : (0x2D :: year ++ (spelling.name ++ rest)).drop (1 + year.length) =
        spelling.name ++ rest := by
      rw [Nat.add_comm]
      exact List.drop_left
    simp only [secondYear, List.append_assoc] at length ⊢
    simp only [read?, readsWord, Option.bind_eq_bind, Option.bind_some, readsSign,
      year?_append _ _ isFirst, List.drop_left, secondYear_year year _ (isLast year rfl), behind,
      name_read, Option.pure_def]
    simp only [List.length_append] at length ⊢
    congr 2 <;> omega

/-! ### What is read has been written -/

theorem exists_spaces (text : Text) : ∃ count, text = Text.spaces count ++ skipSpaces text := by
  refine ⟨(text.takeWhile fun unit => unit == 0x20).length, ?_⟩
  have units : text.takeWhile (fun unit => unit == 0x20) =
      Text.spaces (text.takeWhile fun unit => unit == 0x20).length :=
    List.eq_replicate_of_mem fun unit member => by
      have isSpace := List.mem_takeWhile_imp member
      exact beq_iff_eq.mp isSpace
  rw [← units, skipSpaces, List.takeWhile_append_dropWhile]

theorem exists_skipped (beginning text : Text) :
    ∃ has : Bool, text = (if has then beginning else []) ++ skip beginning text := by
  rw [skip]
  cases reads : Text.after? beginning text with
  | none => exact ⟨false, rfl⟩
  | some rest => exact ⟨true, Text.after?_eq_some _ _ _ reads⟩

/-- A year is where it was read. -/
theorem year?_eq_some (text year : Text) (reads : year? text = some year) :
    text = year ++ text.drop year.length ∧ IsYear year := by
  rw [year?] at reads
  split at reads
  case isTrue digits =>
    cases reads
    rw [Bool.and_eq_true, decide_eq_true_eq, List.all_eq_true] at digits
    rw [digits.1]
    exact ⟨(List.take_append_drop 4 text).symm, digits⟩
  case isFalse => cases reads

theorem secondYear?_eq_some (text year : Text)
    (reads : (Text.after? "-" text).bind year? = some year) :
    text = 0x2D :: year ++ text.drop (1 + year.length) ∧ IsYear year := by
  obtain ⟨rest, readsHyphen, readsYear⟩ := Option.bind_eq_some_iff.mp reads
  cases Text.after?_eq_some _ _ _ readsHyphen
  obtain ⟨whole, isYear⟩ := year?_eq_some _ _ readsYear
  have hyphen : Text.ofString "-" = [0x2D] := by decide
  rw [hyphen, List.singleton_append, Nat.add_comm, List.drop_succ_cons]
  exact ⟨congrArg (List.cons 0x2D) whole, isYear⟩

/-- What stands before the years. -/
theorem exists_lead (text rest : Text) (reads : Text.after? "Copyright" text = some rest) :
    ∃ spelling : Spelling, text = spelling.lead ++ skipSpaces (skip "(c)" (skipSpaces rest)) := by
  obtain ⟨gapBefore, beforeWhole⟩ := exists_spaces rest
  obtain ⟨sign, signWhole⟩ := exists_skipped "(c)" (skipSpaces rest)
  obtain ⟨gapAfter, afterWhole⟩ := exists_spaces (skip "(c)" (skipSpaces rest))
  refine ⟨⟨gapBefore, sign, gapAfter, false, 0, false⟩, ?_⟩
  simp only [Spelling.lead, List.append_assoc]
  rw [← afterWhole, ← signWhole, ← beforeWhole]
  exact Text.after?_eq_some _ _ _ reads

/-- What stands between the years and the end of the notice. -/
theorem exists_name (text rest : Text)
    (reads : afterHolder? (skipSpaces (skip "," text)) = some rest) :
    ∃ spelling : Spelling, text = spelling.name ++ rest := by
  obtain ⟨comma, commaWhole⟩ := exists_skipped "," text
  obtain ⟨gap, gapWhole⟩ := exists_spaces (skip "," text)
  obtain ⟨afterFirst, readsFirst, readsSecond⟩ := Option.bind_eq_some_iff.mp reads
  have holder : ∃ capitals : Bool,
      afterFirst = (if capitals then Text.ofString "ORPORATION" else "orporation") ++ rest := by
    cases capitals : Text.after? "ORPORATION" afterFirst with
    | some afterCapitals =>
      rw [capitals] at readsSecond
      cases readsSecond
      exact ⟨true, Text.after?_eq_some _ _ _ capitals⟩
    | none =>
      rw [capitals] at readsSecond
      exact ⟨false, Text.after?_eq_some _ _ _ readsSecond⟩
  obtain ⟨capitals, holderWhole⟩ := holder
  refine ⟨⟨0, false, 0, comma, gap, capitals⟩, ?_⟩
  simp only [Spelling.name, Spelling.nameEnd, List.append_assoc]
  rw [← holderWhole, ← Text.after?_eq_some _ _ _ readsFirst, ← gapWhole, ← commaWhole]

/-- A notice that is read is what a text begins with. -/
theorem exists_written_of_read? (text : Text) (notice : Notice) (reads : read? text = some notice) :
    ∃ written rest, text = written ++ rest ∧ notice.Written written := by
  simp only [read?, Option.bind_eq_bind, Option.bind_eq_some_iff, Option.pure_def,
    Option.some.injEq] at reads
  obtain ⟨afterWord, readsWord, firstYear, readsFirst, rest, readsName, rfl⟩ := reads
  obtain ⟨leads, leadWhole⟩ := exists_lead text afterWord readsWord
  generalize skipSpaces (skip "(c)" (skipSpaces afterWord)) = fromYears at *
  obtain ⟨firstWhole, isFirst⟩ := year?_eq_some _ _ readsFirst
  obtain ⟨names, nameWhole⟩ := exists_name _ _ readsName
  let spelling : Spelling :=
    ⟨leads.gapBefore, leads.sign, leads.gapAfter, names.comma, names.gap, names.capitals⟩
  have years : ∃ written, fromYears = firstYear ++ (written ++ (names.name ++ rest)) ∧
      written = secondYear ⟨text.length - fromYears.length, firstYear,
        (Text.after? "-" (fromYears.drop firstYear.length)).bind year?, text.length - rest.length⟩ ∧
      ∀ year, (Text.after? "-" (fromYears.drop firstYear.length)).bind year? = some year →
        IsYear year := by
    refine ⟨_, ?_, rfl, fun year second => (secondYear?_eq_some _ _ second).2⟩
    refine firstWhole.trans (congrArg (firstYear ++ ·) ?_)
    cases second : (Text.after? "-" (fromYears.drop firstYear.length)).bind year? with
    | none =>
      rw [second] at nameWhole
      exact nameWhole
    | some year =>
      rw [second] at nameWhole
      exact (secondYear?_eq_some _ _ second).1.trans (congrArg (0x2D :: year ++ ·) nameWhole)
  obtain ⟨second, yearsWhole, second_eq, isSecond⟩ := years
  refine ⟨leads.lead ++ (firstYear ++ (second ++ names.name)), rest, ?_, isFirst, isSecond,
    ⟨spelling, ?_, ?_⟩, ?_⟩
  · rw [leadWhole, yearsWhole]
    simp only [List.append_assoc]
  · show leads.lead.length = text.length - fromYears.length
    rw [leadWhole, List.length_append, Nat.add_sub_cancel_right]
  · rw [second_eq]
    rfl
  · have measured := congrArg List.length (leadWhole.trans (congrArg (leads.lead ++ ·) yearsWhole))
    simp only [List.length_append] at measured ⊢
    omega

/-! ### The units of a notice -/

/-- A unit that a notice may have after its first word. -/
def isUsual (unit : CodeUnit) : Bool :=
  unit.isDigit || (Text.ofString " (c)-,NVIDIA CORPORATIONorporation").contains unit

theorem isUsual_of_mem_ofString (string : String)
    (all : (Text.ofString string).all isUsual = true) (unit : CodeUnit)
    (member : unit ∈ Text.ofString string) : isUsual unit = true :=
  List.all_eq_true.mp all unit member

theorem isUsual_of_mem_spaces (count : Nat) (unit : CodeUnit) (member : unit ∈ Text.spaces count) :
    isUsual unit = true := by
  rw [List.eq_of_mem_replicate member]
  decide

theorem IsYear.isUsual {text : Text} (isYear : IsYear text) (unit : CodeUnit)
    (member : unit ∈ text) :
    isUsual unit = true := by
  rw [Notice.isUsual, isYear.2 unit member, Bool.true_or]

theorem isUsual_of_mem_name (spelling : Spelling) (unit : CodeUnit)
    (member : unit ∈ spelling.name) :
    isUsual unit = true := by
  simp only [Spelling.name, Spelling.nameEnd, List.mem_append] at member
  rcases member with comma | gap | word | nameEnd
  · split at comma
    · exact isUsual_of_mem_ofString "," (by decide) unit comma
    · exact absurd comma List.not_mem_nil
  · exact isUsual_of_mem_spaces _ unit gap
  · exact isUsual_of_mem_ofString "NVIDIA C" (by decide) unit word
  · split at nameEnd
    · exact isUsual_of_mem_ofString "ORPORATION" (by decide) unit nameEnd
    · exact isUsual_of_mem_ofString "orporation" (by decide) unit nameEnd

theorem isUsual_of_mem_secondYear (notice : Notice)
    (isLast : ∀ year, notice.lastYear = some year → IsYear year) (unit : CodeUnit)
    (member : unit ∈ notice.secondYear) : isUsual unit = true := by
  rw [secondYear] at member
  split at member
  case h_1 year second =>
    rcases List.mem_cons.mp member with rfl | digit
    · decide
    · exact (isLast year second).isUsual unit digit
  case h_2 => exact absurd member List.not_mem_nil

namespace Written

variable {notice : Notice} {text : Text} (written : notice.Written text)

include written

/-- After the first word there are usual units only. -/
theorem exists_word : ∃ after : Text,
    text = "Copyright" ++ after ∧ ∀ unit ∈ after, isUsual unit = true := by
  obtain ⟨isFirst, isLast, ⟨spelling, lead, whole⟩, length⟩ := written
  refine ⟨_, by rw [whole, Spelling.lead, List.append_assoc], fun unit member => ?_⟩
  simp only [List.mem_append] at member
  rcases member with (gapBefore | sign | gapAfter) | first | second | name
  · exact isUsual_of_mem_spaces _ unit gapBefore
  · split at sign
    · exact isUsual_of_mem_ofString "(c)" (by decide) unit sign
    · exact absurd sign List.not_mem_nil
  · exact isUsual_of_mem_spaces _ unit gapAfter
  · exact isFirst.isUsual unit first
  · exact isUsual_of_mem_secondYear notice isLast unit second
  · exact isUsual_of_mem_name spelling unit name

theorem exists_nameEnd :
    ∃ (before : Text) (spelling : Spelling), text = before ++ spelling.nameEnd := by
  obtain ⟨_, _, ⟨spelling, _, whole⟩, _⟩ := written
  refine ⟨spelling.lead ++ (notice.firstYear ++ (notice.secondYear ++
    ((if spelling.comma then Text.ofString "," else []) ++
      (Text.spaces spelling.gap ++ "NVIDIA C")))), spelling, ?_⟩
  rw [whole, Spelling.name]
  simp only [List.append_assoc]

/-- A unit that is not usual and not of the first word is not in a notice. -/
theorem not_mem (unit : CodeUnit) (unusual : isUsual unit = false)
    (notInWord : (Text.ofString "Copyright").contains unit = false) : unit ∉ text := by
  obtain ⟨after, rfl, usual⟩ := written.exists_word
  rw [List.mem_append, not_or]
  refine ⟨fun member => ?_, fun member => ?_⟩
  · rw [List.contains_iff_mem.mpr member] at notInWord
    cases notInWord
  · rw [usual unit member] at unusual
    cases unusual

theorem isOneLine : text.OneLine := by
  intro unit member
  constructor <;> rintro rfl <;>
    exact absurd member (written.not_mem _ (by decide) (by decide))

theorem length_pos : 31 ≤ text.length := by
  obtain ⟨isFirst, _, ⟨spelling, _, whole⟩, _⟩ := written
  have word : (Text.ofString "Copyright").length = 9 := by decide
  have name : (Text.ofString "NVIDIA C").length = 8 := by decide
  have nameEnd : spelling.nameEnd.length = 10 := by
    rw [Spelling.nameEnd]
    split <;> decide
  rw [whole, Spelling.lead, Spelling.name]
  simp only [List.length_append, word, name, nameEnd, isFirst.1]
  omega

/-- Whether a line terminator follows on the line of a notice has nothing to do with the notice. -/
theorem breaksWithin_append (rest : Text) :
    Text.BreaksWithin (text ++ rest) ↔ Text.BreaksWithin rest := by
  have noBlank : ∀ unit ∈ text.getLast?, unit.isBlank = false := by
    obtain ⟨before, spelling, rfl⟩ := written.exists_nameEnd
    have last : spelling.nameEnd.getLast? = some 0x4E ∨ spelling.nameEnd.getLast? = some 0x6E := by
      rw [Spelling.nameEnd]
      split <;> decide
    have notEmpty : spelling.nameEnd ≠ [] := by
      intro empty
      simp [empty] at last
    rw [List.getLast?_append_of_ne_nil _ notEmpty]
    rcases last with last | last <;> rw [last] <;> rintro _ ⟨⟩ <;> decide
  have noTerminator : text.any CodeUnit.isLineTerminator = false := by
    refine List.any_eq_false.mpr fun unit member isTerminator => ?_
    have oneOf : unit = 0x0A ∨ unit = 0x0D ∨ unit = 0x2028 ∨ unit = 0x2029 := by
      simpa [CodeUnit.isLineTerminator, or_assoc] using isTerminator
    rcases oneOf with rfl | rfl | rfl | rfl <;>
      exact written.not_mem _ (by decide) (by decide) member
  rw [Text.BreaksWithin, Text.BreaksWithin, Text.trimEnd_append_of_getLast? _ _ noBlank,
    List.any_append, noTerminator, Bool.false_or]

end Written

/-- A notice with two years as the holder writes it. -/
def inFull (firstYear lastYear : Text) : Text :=
  "Copyright (c) " ++ firstYear ++ "-" ++ lastYear ++ ", NVIDIA CORPORATION"

theorem written_inFull {firstYear lastYear : Text} (isFirst : IsYear firstYear)
    (isLast : IsYear lastYear) :
    Written ⟨14, firstYear, some lastYear, 43⟩ (inFull firstYear lastYear) := by
  have before : (Spelling.lead ⟨1, true, 1, true, 1, true⟩).length = 14 := by decide
  refine ⟨isFirst, fun year same => Option.some.inj same ▸ isLast,
    ⟨⟨1, true, 1, true, 1, true⟩, before, ?_⟩, ?_⟩
  · have lead : Text.ofString "Copyright (c) " = Spelling.lead ⟨1, true, 1, true, 1, true⟩ := by
      decide
    have name : Text.ofString ", NVIDIA CORPORATION" =
        Spelling.name ⟨1, true, 1, true, 1, true⟩ := by decide
    have hyphen : Text.ofString "-" = [0x2D] := by decide
    rw [inFull, lead, name, hyphen, secondYear]
    simp only [List.append_assoc, List.cons_append, List.nil_append]
  · have lead : (Text.ofString "Copyright (c) ").length = 14 := by decide
    have name : (Text.ofString ", NVIDIA CORPORATION").length = 20 := by decide
    have hyphen : (Text.ofString "-").length = 1 := by decide
    simp only [inFull, List.length_append, lead, name, hyphen, isFirst.1, isLast.1]

end Notice

end Copyright

end SourceLint
