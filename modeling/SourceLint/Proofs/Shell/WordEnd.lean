/-
This file says where words end. A word of a command is the open word of the machine at its stop,
outside of quotes, and there the text ends or a unit comes that ends words. So what is known of the
end of a word is known of the machine at that place.
-/
import SourceLint.Proofs.Shell.Outlook
import SourceLint.Proofs.Shell.Rewriting
import SourceLint.Proofs.Text.Cut

namespace SourceLint.Shell

namespace Splitter

/-! ### Units that end words -/

/-- Outside of quotes, this unit ends the open word. -/
def endsWord (previous : Option CodeUnit) (unit : CodeUnit) (rest : Text) : Bool :=
  (unit = '<' && beginsHereDocument rest) ||
    (!(unit = '&' && isRedirection previous rest) && (isOperator unit || unit.isBlank))

/-- A unit that stands for itself in a word, wherever it is. -/
def isOrdinary (unit : CodeUnit) : Bool :=
  !unit.isBlank && !(("\\\x27\"#;&|()<>" : Text).contains unit)

variable {splitter : Splitter} {position : Nat} {unit : CodeUnit} {rest : Text}

theorem ne_of_endsWord {previous : Option CodeUnit} (ends : endsWord previous unit rest = true) :
    unit ≠ '\\' ∧ unit ≠ 0x27 ∧ unit ≠ '"' ∧ unit ≠ '#' := by
  have among : (unit == ('<' : CodeUnit) || isOperator unit || unit.isBlank) = true := by
    simp only [endsWord, Bool.or_eq_true, Bool.and_eq_true, decide_eq_true_eq] at ends
    simp only [Bool.or_eq_true, beq_iff_eq]
    tauto
  refine ⟨?_, ?_, ?_, ?_⟩ <;>
  · rintro rfl
    revert among
    decide

/-- What the machine does at a unit that ends words. -/
theorem readPlain_of_endsWord (ends : endsWord splitter.previous unit rest = true) :
    splitter.readPlain position unit rest =
      if unit = '<' && beginsHereDocument rest then
        { splitter.closeWord position with mode := .operatorTail }
      else if unit = 0x0A then splitter.endLine position
      else if isOperator unit then splitter.closeCommand position
      else splitter.closeWord position := by
  obtain ⟨notBackslash, notSingle, notDouble, notHash⟩ := ne_of_endsWord ends
  have notComment : (unit = '#' && splitter.word.isNone) = false := by
    rw [decide_eq_false notHash, Bool.false_and]
  unfold readPlain
  rw [if_neg notBackslash, if_neg notSingle, if_neg notDouble, notComment, if_neg Bool.false_ne_true]
  by_cases isSign : (unit = '<' && beginsHereDocument rest) = true
  · rw [if_pos isSign, if_pos isSign]
  rw [endsWord, Bool.eq_false_iff.mpr isSign, Bool.false_or, Bool.and_eq_true,
    Bool.not_eq_true'] at ends
  rw [if_neg isSign, if_neg isSign, ends.1, if_neg Bool.false_ne_true]
  by_cases isOperator : isOperator unit = true
  · rw [if_pos isOperator, if_pos isOperator]
  · rw [if_neg isOperator, if_neg isOperator, if_pos ((Bool.or_eq_true_iff.mp ends.2).resolve_left isOperator)]

/-- Once the word has ended, a unit that ends words does the same. -/
theorem readPlain_closeWord (ends : endsWord splitter.previous unit rest = true) :
    (splitter.closeWord position).readPlain position unit rest =
      splitter.readPlain position unit rest := by
  have samePrevious : (splitter.closeWord position).previous = splitter.previous := by
    rw [closeWord]
    split <;> rfl
  rw [readPlain_of_endsWord ends, readPlain_of_endsWord (samePrevious ▸ ends), endLine, endLine,
    closeCommand_closeWord, closeWord_of_no_word word_closeWord]

/-- What the machine does at a unit that does not end words: the unit goes to the open word, or the
machine reads on in another mode. -/
theorem readPlain_of_not_endsWord (position : Nat)
    (notEnds : endsWord splitter.previous unit rest = false) :
    splitter.readPlain position unit rest = (splitter.openWord position).append [unit] ∨
      ∃ mode, mode ≠ .plain ∧ (mode = .escaped → rest ≠ []) ∧
        (splitter.readPlain position unit rest = { splitter.openWord position with mode := mode } ∨
          splitter.readPlain position unit rest = { splitter with mode := mode }) := by
  rw [endsWord, Bool.or_eq_false_iff] at notEnds
  obtain ⟨notSign, apart⟩ := notEnds
  unfold readPlain
  rw [notSign]
  split
  · split
    · exact Or.inl rfl
    · split
      · exact Or.inr ⟨.continuation, by simp, by simp, Or.inr rfl⟩
      · exact Or.inr ⟨.escaped, by simp, by simp, Or.inl rfl⟩
  split
  · exact Or.inr ⟨.singleQuoted, by simp, by simp, Or.inl rfl⟩
  split
  · exact Or.inr ⟨.doubleQuoted, by simp, by simp, Or.inl rfl⟩
  split
  · exact Or.inr ⟨.comment, by simp, by simp, Or.inr rfl⟩
  split
  case isTrue impossible => cases impossible
  split
  · exact Or.inl rfl
  case isFalse notRedirection =>
    rw [Bool.eq_false_iff.mpr notRedirection, Bool.not_false, Bool.true_and,
      Bool.or_eq_false_iff] at apart
    have notFeed : unit ≠ 0x0A := by
      rintro rfl
      exact absurd apart.2 (by decide)
    rw [if_neg notFeed, apart.1, apart.2, if_neg Bool.false_ne_true, if_neg Bool.false_ne_true]
    exact Or.inl rfl

theorem ne_of_isOrdinary (ordinary : isOrdinary unit = true) (other : CodeUnit)
    (special : isOrdinary other = false) : unit ≠ other := by
  rintro rfl
  rw [special] at ordinary
  cases ordinary

theorem isOperator_of_isOrdinary (ordinary : isOrdinary unit = true) : isOperator unit = false :=
  Text.contains_eq_false ordinary (by decide)

theorem not_isBlank_of_isOrdinary (ordinary : isOrdinary unit = true) : unit.isBlank = false := by
  rw [isOrdinary, Bool.and_eq_true, Bool.not_eq_true'] at ordinary
  exact ordinary.1

theorem readPlain_of_isOrdinary (ordinary : isOrdinary unit = true) :
    splitter.readPlain position unit rest = (splitter.openWord position).append [unit] := by
  have unlike := ne_of_isOrdinary ordinary
  have notBlank := not_isBlank_of_isOrdinary ordinary
  unfold readPlain
  rw [if_neg (unlike _ (by decide)), if_neg (unlike _ (by decide)), if_neg (unlike _ (by decide)),
    decide_eq_false (unlike '#' (by decide)), decide_eq_false (unlike '<' (by decide)),
    decide_eq_false (unlike '&' (by decide)), Bool.false_and, Bool.false_and, Bool.false_and,
    if_neg Bool.false_ne_true, if_neg Bool.false_ne_true, if_neg Bool.false_ne_true,
    if_neg (unlike _ (by decide)), isOperator_of_isOrdinary ordinary, notBlank,
    if_neg Bool.false_ne_true, if_neg Bool.false_ne_true]

/-! ### Words that are found -/

theorem found_openWord (position : Nat) : (splitter.openWord position).found = splitter.found := by
  rw [openWord]
  split <;> rfl

/-- A word that was found when the open word ended is the one that was open, or an older one. -/
theorem mem_found_closeWord {word : Word} (member : word ∈ (splitter.closeWord position).found) :
    word ∈ splitter.found ∨
      word.span.stop = position ∧ splitter.word = some ⟨word.span.start, word.text⟩ := by
  rw [closeWord] at member
  split at member
  case h_1 isOpen =>
    rcases List.mem_cons.mp member with rfl | older
    · exact Or.inr ⟨rfl, isOpen⟩
    · exact Or.inl older
  · exact Or.inl member

/-- A word that is new when a unit has been read was open and ended at that unit. -/
theorem mem_found_readPlain {word : Word}
    (member : word ∈ (splitter.readPlain position unit rest).found) :
    word ∈ splitter.found ∨ word.span.stop = position ∧
      splitter.word = some ⟨word.span.start, word.text⟩ ∧
      endsWord splitter.previous unit rest = true := by
  cases ends : endsWord splitter.previous unit rest with
  | true =>
    have closed : word ∈ (splitter.closeWord position).found := by
      rw [readPlain_of_endsWord ends] at member
      split at member
      · exact member
      split at member
      · exact found_closeCommand_sublist.subset member
      split at member
      · exact found_closeCommand_sublist.subset member
      · exact member
    exact (mem_found_closeWord closed).imp_right fun opened => ⟨opened.1, opened.2, rfl⟩
  | false =>
    left
    rcases readPlain_of_not_endsWord position ends with
      grows | ⟨_, _, _, opens | stays⟩
    · rw [grows] at member
      exact found_openWord position ▸ member
    · rw [opens] at member
      exact found_openWord position ▸ member
    · rw [stays] at member
      exact member

section NoWord

variable (isNone : splitter.word = none)

include isNone

/-- Where no word is open, no unit finds one. -/
theorem found_readPlain_subset :
    (splitter.readPlain position unit rest).found ⊆ splitter.found := by
  intro word member
  refine (mem_found_readPlain member).resolve_right fun opened => ?_
  rw [isNone] at opened
  cases opened.2.1

theorem found_endLine_subset : (splitter.endLine position).found ⊆ splitter.found := by
  refine List.Subset.trans found_closeCommand_sublist.subset ?_
  rw [closeWord_of_no_word isNone]
  exact List.Subset.refl _

theorem found_readDelimiter_subset (stripsTabs : Bool) (reader : DelimiterReader) :
    (splitter.readDelimiter stripsTabs reader position unit rest).found ⊆ splitter.found := by
  have plain (document : HereDocument) :
      (Splitter.readPlain
        { splitter with mode := .plain, pending := splitter.pending ++ [document] }
        position unit rest).found ⊆ splitter.found := found_readPlain_subset isNone
  unfold readDelimiter
  dsimp only
  repeat' split
  all_goals first | exact List.Subset.refl _ | exact plain _

theorem found_readDelimiterGap_subset (stripsTabs : Bool) :
    (splitter.readDelimiterGap stripsTabs position unit rest).found ⊆ splitter.found := by
  rw [readDelimiterGap]
  split
  · exact List.Subset.refl _
  · exact found_readDelimiter_subset isNone _ _

end NoWord

theorem found_endBodyLine (line : Text) :
    (splitter.endBodyLine line).found = splitter.found := by
  rw [endBodyLine]
  split
  · rfl
  · split <;> rfl

/-- A word that is new when a unit has been read was open, outside of quotes, and ended at it. -/
theorem After.mem_found_step {content : Text} {last : Option CodeUnit}
    (after : After content position last splitter) {word : Word}
    (member : word ∈ (splitter.step position unit rest).found) :
    word ∈ splitter.found ∨ word.span.stop = position ∧
      splitter.word = some ⟨word.span.start, word.text⟩ ∧ splitter.mode = .plain ∧
      endsWord splitter.previous unit rest = true := by
  replace member : word ∈ (splitter.read position unit rest).found := member
  have between := after.between
  rw [Splitter.read] at member
  cases isMode : splitter.mode <;> rw [isMode] at member between <;> dsimp only at member
  case plain =>
    exact (mem_found_readPlain member).imp_right fun opened =>
      ⟨opened.1, opened.2.1, rfl, opened.2.2⟩
  -- In the other modes no word ends.
  all_goals left
  case comment =>
    split at member
    · exact found_endLine_subset (between rfl) member
    · exact member
  case operatorHyphen =>
    split at member
    · exact member
    · exact found_readDelimiterGap_subset (between rfl) _ member
  case delimiterGap => exact found_readDelimiterGap_subset (between rfl) _ member
  case delimiter => exact found_readDelimiter_subset (between rfl) _ _ member
  case body =>
    split at member
    · exact found_endBodyLine _ ▸ member
    · exact member
  all_goals
    repeat' split at member
    all_goals exact member

/-! ### Modes and the open word -/

theorem mode_endLine_ne_escaped : (splitter.endLine position).mode ≠ .escaped := by
  rw [endLine]
  dsimp only
  split <;> simp

/-- The machine waits for the unit after a backslash only if there is one. -/
theorem ne_nil_of_readPlain (plain : splitter.mode = .plain)
    (escapes : (splitter.readPlain position unit rest).mode = .escaped) : rest ≠ [] := by
  cases ends : endsWord splitter.previous unit rest with
  | true =>
    rw [readPlain_of_endsWord ends] at escapes
    split at escapes
    · cases escapes
    split at escapes
    · exact absurd escapes mode_endLine_ne_escaped
    split at escapes <;> simp [plain] at escapes
  | false =>
    rcases readPlain_of_not_endsWord position ends with
      grows | ⟨mode, _, awaits, opens | stays⟩
    · simp [grows, plain] at escapes
    · exact awaits (by rwa [opens] at escapes)
    · exact awaits (by rwa [stays] at escapes)

theorem ne_nil_of_readDelimiter (stripsTabs : Bool) (reader : DelimiterReader)
    (escapes : (splitter.readDelimiter stripsTabs reader position unit rest).mode = .escaped) :
    rest ≠ [] := by
  revert escapes
  unfold readDelimiter
  dsimp only
  repeat' split
  all_goals first | exact ne_nil_of_readPlain rfl | simp

theorem ne_nil_of_step (escapes : (splitter.step position unit rest).mode = .escaped) :
    rest ≠ [] := by
  replace escapes : (splitter.read position unit rest).mode = .escaped := escapes
  rw [read] at escapes
  cases isMode : splitter.mode <;> rw [isMode] at escapes <;> dsimp only at escapes
  case plain => exact ne_nil_of_readPlain isMode escapes
  case delimiter => exact ne_nil_of_readDelimiter _ _ escapes
  case delimiterGap | operatorHyphen =>
    simp only [readDelimiterGap] at escapes
    repeat' split at escapes
    all_goals first | exact ne_nil_of_readDelimiter _ _ escapes | cases escapes
  case comment =>
    split at escapes
    · exact absurd escapes mode_endLine_ne_escaped
    · rw [isMode] at escapes
      cases escapes
  case body =>
    split at escapes
    · revert escapes
      rw [endBodyLine]
      repeat' split
      all_goals simp
    · cases escapes
  all_goals
    repeat' split at escapes
    all_goals simp_all

/-- A word that is open outside of quotes after a unit has that unit. -/
theorem mem_of_readPlain (plain : (splitter.readPlain position unit rest).mode = .plain)
    {word : OpenWord} (isOpen : (splitter.readPlain position unit rest).word = some word) :
    unit ∈ word.text := by
  cases ends : endsWord splitter.previous unit rest with
  | true =>
    have closed : (splitter.readPlain position unit rest).word = none := by
      rw [readPlain_of_endsWord ends]
      repeat' split
      · exact word_closeWord
      · exact word_closeCommand
      · exact word_closeCommand
      · exact word_closeWord
    rw [closed] at isOpen
    cases isOpen
  | false =>
    rcases readPlain_of_not_endsWord position ends with
      grows | ⟨mode, notPlain, _, opens | stays⟩
    · rw [grows] at isOpen
      obtain ⟨before, _, rfl⟩ := Option.map_eq_some_iff.mp isOpen
      exact List.mem_append_right _ List.mem_cons_self
    · exact absurd (by rwa [opens] at plain) notPlain
    · exact absurd (by rwa [stays] at plain) notPlain

theorem mem_of_readDelimiter {stripsTabs : Bool} {reader : DelimiterReader}
    (plain : (splitter.readDelimiter stripsTabs reader position unit rest).mode = .plain)
    {word : OpenWord}
    (isOpen : (splitter.readDelimiter stripsTabs reader position unit rest).word = some word) :
    unit ∈ word.text := by
  revert plain isOpen
  unfold readDelimiter
  dsimp only
  repeat' split
  all_goals
    intro plain isOpen
    first | exact mem_of_readPlain plain isOpen | cases plain

theorem mem_of_readDelimiterGap {stripsTabs : Bool}
    (plain : (splitter.readDelimiterGap stripsTabs position unit rest).mode = .plain)
    {word : OpenWord}
    (isOpen : (splitter.readDelimiterGap stripsTabs position unit rest).word = some word) :
    unit ∈ word.text := by
  rw [readDelimiterGap] at plain isOpen
  split at plain
  · cases plain
  case isFalse notBlank =>
    rw [if_neg notBlank] at isOpen
    exact mem_of_readDelimiter plain isOpen

theorem word_endBodyLine (line : Text) : (splitter.endBodyLine line).word = splitter.word := by
  rw [endBodyLine]
  split
  · rfl
  · split <;> rfl

/-- A word that is open outside of quotes after a unit has that unit, or the unit closed a quote or
went on in the next line. -/
theorem After.mem_of_step {content : Text} {last : Option CodeUnit}
    (after : After content position last splitter) (here : content.drop position = unit :: rest)
    (plain : (splitter.step position unit rest).mode = .plain) {word : OpenWord}
    (isOpen : (splitter.step position unit rest).word = some word) :
    unit ∈ word.text ∨ unit ∈ ([0x27, '"', 0x0A] : Text) := by
  replace plain : (splitter.read position unit rest).mode = .plain := plain
  replace isOpen : (splitter.read position unit rest).word = some word := isOpen
  have between := after.between
  have continues := after.continues
  rw [Splitter.read] at plain isOpen
  cases isMode : splitter.mode <;> rw [isMode] at plain isOpen between continues <;>
    dsimp only at plain isOpen
  case plain => exact Or.inl (mem_of_readPlain plain isOpen)
  case escaped =>
    obtain ⟨before, _, rfl⟩ := Option.map_eq_some_iff.mp isOpen
    exact Or.inl (List.mem_append_right _ List.mem_cons_self)
  case continuation =>
    have isFeed := (getElem?_of_drop here).symm.trans (continues rfl)
    exact Or.inr (by simp [Option.some.inj isFeed])
  case delimiter => exact Or.inl (mem_of_readDelimiter plain isOpen)
  case delimiterGap => exact Or.inl (mem_of_readDelimiterGap plain isOpen)
  case operatorHyphen =>
    split at plain
    · cases plain
    case isFalse notHyphen =>
      rw [if_neg notHyphen] at isOpen
      exact Or.inl (mem_of_readDelimiterGap plain isOpen)
  case comment =>
    split at plain
    case isTrue isFeed =>
      rw [if_pos isFeed] at isOpen
      exact absurd (word_closeCommand.symm.trans isOpen) (by simp)
    · rw [isMode] at plain
      cases plain
  case body =>
    split at plain
    case isTrue isFeed =>
      rw [if_pos isFeed, word_endBodyLine, between rfl] at isOpen
      cases isOpen
    · cases plain
  case singleQuoted =>
    split at plain
    case isTrue isQuote => exact Or.inr (by simp [isQuote])
    · rw [mode_append, isMode] at plain
      cases plain
  case doubleQuoted =>
    split at plain
    · cases plain
    split at plain
    case isTrue isQuote => exact Or.inr (by simp [isQuote])
    · rw [mode_append, isMode] at plain
      cases plain
  all_goals cases plain

/-! ### The machine at a place of a text -/

/-- The machine after the units of a text before a position. -/
def upTo (content : Text) (position : Nat) : Splitter :=
  ({} : Splitter).runTo 0 (content.drop position) (content.take position)

variable {content : Text}

theorem upTo_succ (here : content.drop position = unit :: rest) :
    upTo content (position + 1) = (upTo content position).step position unit rest := by
  have taken : content.take (position + 1) = content.take position ++ [unit] := by
    rw [List.take_add_one, getElem?_of_drop here]
    rfl
  rw [upTo, upTo, drop_succ_of_drop here, taken, runTo_append,
    List.length_take_of_le (position_le_of_drop here), Nat.zero_add, here]
  rfl

theorem run_eq_run_upTo (inside : position ≤ content.length) :
    ({} : Splitter).run 0 content = (upTo content position).run position (content.drop position) := by
  have whole := run_append {} 0 (content.take position) (content.drop position)
  rwa [List.take_append_drop, List.length_take_of_le inside, Nat.zero_add] at whole

theorem exists_drop_eq_cons (inside : position < content.length) :
    ∃ unit rest, content.drop position = unit :: rest :=
  List.exists_cons_of_ne_nil fun empty =>
    Nat.not_le_of_lt inside (List.drop_eq_nil_iff.mp empty)

theorem reached_upTo (inside : position ≤ content.length) :
    Reached content position (upTo content position) := by
  induction position with
  | zero => exact reached_start content
  | succ position inductionHypothesis =>
    obtain ⟨unit, rest, here⟩ := exists_drop_eq_cons inside
    rw [upTo_succ here]
    exact (inductionHypothesis (Nat.le_of_lt inside)).step here

end Splitter

open Splitter

/-- A word is the open word of the machine at its stop, outside of quotes, and there the text ends
or a unit comes that ends words. -/
structure Word.EndsIn (content : Text) (word : Word) : Prop where
  isOpen : (upTo content word.span.stop).word = some ⟨word.span.start, word.text⟩
  plain : (upTo content word.span.stop).mode = .plain
  ends : ∀ unit rest, content.drop word.span.stop = unit :: rest →
    endsWord (upTo content word.span.stop).previous unit rest = true

/-- The words that are found before a position stop before it. -/
theorem endsIn_of_mem_found {content : Text} {position : Nat} (inside : position ≤ content.length)
    {word : Word} (member : word ∈ (upTo content position).found) :
    word.span.stop < position ∧ word.EndsIn content := by
  induction position with
  | zero => cases member
  | succ position inductionHypothesis =>
    obtain ⟨unit, rest, here⟩ := exists_drop_eq_cons inside
    have reached := reached_upTo (Nat.le_of_lt inside)
    rw [upTo_succ here] at member
    rcases reached.after.mem_found_step member with older | ⟨rfl, isOpen, plain, ends⟩
    · obtain ⟨before, endsIn⟩ := inductionHypothesis (Nat.le_of_lt inside) older
      exact ⟨Nat.lt_succ_of_lt before, endsIn⟩
    · refine ⟨Nat.lt_succ_self _, isOpen, plain, fun other others same => ?_⟩
      cases here.symm.trans same
      exact ends

/-- At the end of a text where no quote is open, an open word is outside of quotes. -/
theorem plain_of_isOpen {content : Text} (notQuoted : (upTo content content.length).inQuote = false)
    {word : OpenWord} (isOpen : (upTo content content.length).word = some word) :
    (upTo content content.length).mode = .plain := by
  obtain ⟨_, between, _, continues⟩ := (reached_upTo (Nat.le_refl content.length)).after
  have notEscaped : (upTo content content.length).mode ≠ .escaped := by
    intro escapes
    cases isLength : content.length with
    | zero =>
      rw [isLength] at escapes
      cases escapes
    | succ position =>
      obtain ⟨unit, rest, here⟩ := exists_drop_eq_cons (isLength.symm ▸ Nat.lt_succ_self position :
        position < content.length)
      rw [isLength, upTo_succ here] at escapes
      refine ne_nil_of_step escapes (List.length_eq_zero_iff.mp ?_)
      have length := congrArg List.length here
      rw [List.length_drop, List.length_cons] at length
      omega
  have noUnit : content[content.length]? ≠ some 0x0A := by
    rw [List.getElem?_eq_none (Nat.le_refl _)]
    simp
  rw [isOpen] at between
  rw [inQuote] at notQuoted
  generalize (upTo content content.length).mode = mode at *
  cases mode
  case plain => rfl
  case escaped => exact absurd rfl notEscaped
  case continuation => exact absurd (continues rfl) noUnit
  case singleQuoted | doubleQuoted | quotedEscape => cases notQuoted
  all_goals cases between rfl

/-- The words of the commands of a text. -/
theorem endsIn_of_commands? {content : Text} {commands : List Command}
    (splits : commands? content = some commands) {word : Word} (member : word ∈ commands.flatten) :
    word.EndsIn content := by
  have atEnd : ({} : Splitter).run 0 content = upTo content content.length := by
    rw [run_eq_run_upTo (Nat.le_refl _), List.drop_length]
    rfl
  rw [commands?, atEnd] at splits
  split at splits
  · cases splits
  case isFalse notQuoted =>
  cases splits
  have closed : word ∈ ((upTo content content.length).closeCommand content.length).found := by
    obtain ⟨command, isCommand, inCommand⟩ := List.mem_flatten.mp member
    exact List.mem_append_right _ (List.mem_flatMap.mpr
      ⟨command, List.mem_reverse.mp isCommand, List.mem_reverse.mpr inCommand⟩)
  rcases mem_found_closeWord (found_closeCommand_sublist.subset closed) with
    older | ⟨atStop, isOpen⟩
  · exact (endsIn_of_mem_found (Nat.le_refl _) older).2
  · refine ⟨atStop ▸ isOpen, ?_, fun unit rest here => ?_⟩
    · rw [atStop]
      exact plain_of_isOpen (Bool.eq_false_iff.mpr notQuoted) isOpen
    · rw [atStop, List.drop_length] at here
      cases here

/-- Behind the last unit of a word of ordinary units the machine does not look. -/
theorem Word.EndsIn.ne_of_last {content : Text} {word : Word} (endsIn : word.EndsIn content)
    (wordIn : word.In content) (ordinary : ∀ unit ∈ word.text, isOrdinary unit = true)
    {unit : CodeUnit} (isLast : (content.take word.span.stop).getLast? = some unit) :
    unit ≠ '\\' ∧ unit ≠ '&' ∧ unit ≠ '<' := by
  obtain ⟨position, isStop⟩ :=
    Nat.exists_eq_add_one_of_ne_zero (Nat.ne_zero_of_lt wordIn.proper)
  have inside : position < content.length := by
    have inside := wordIn.inside
    omega
  obtain ⟨other, rest, here⟩ := exists_drop_eq_cons inside
  have same : other = unit := by
    rw [isStop, List.take_add_one, getElem?_of_drop here, Option.toList_some,
      List.getLast?_concat] at isLast
    exact Option.some.inj isLast
  subst same
  have stepped := upTo_succ here
  rw [← isStop] at stepped
  have cases := (reached_upTo (Nat.le_of_lt inside)).after.mem_of_step here
    (stepped ▸ endsIn.plain) (stepped ▸ endsIn.isOpen)
  rcases cases with inWord | closing
  · exact ⟨ne_of_isOrdinary (ordinary _ inWord) _ (by decide),
      ne_of_isOrdinary (ordinary _ inWord) _ (by decide),
      ne_of_isOrdinary (ordinary _ inWord) _ (by decide)⟩
  · have special : ∀ other ∈ ([0x27, '"', 0x0A] : Text),
        other ≠ '\\' ∧ other ≠ '&' ∧ other ≠ '<' := by
      rw [List.forall_mem_cons, List.forall_mem_cons, List.forall_mem_singleton]
      decide
    exact special _ closing

end SourceLint.Shell
