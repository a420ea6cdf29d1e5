/-
This file says where the words of a shell text stand. They follow one another, none of them is
empty, and none begins at a line feed. A word may stop between the two units of a line ending, but
only if it has taken the carriage return for a unit of its own, behind a backslash; outside of
quotes a bare one ends the word. The invariant speaks of the unit read last, since the machine keeps
it.
-/
import SourceLint.Proofs.Linter.Placed
import SourceLint.Shell.Splitter

namespace SourceLint.Shell

/-- A word lies in a text. -/
structure Word.In (content : Text) (word : Word) : Prop where
  proper : word.span.start < word.span.stop
  inside : word.span.stop ≤ content.length
  begins : content[word.span.start]? ≠ some 0x0A
  ends : content.SplitsBreak word.span.stop → 0x0D ∈ word.text

/-! ### Words up to a position -/

/-- Words before a position, the last first, and where the open word begins after them. -/
structure Words (content : Text) (position : Nat) (found : List Word) (openAt : Option Nat) :
    Prop where
  bounded : ∀ word ∈ found, word.In content ∧ word.span.stop ≤ position
  ordered : found.Pairwise fun later earlier => earlier.span.stop ≤ later.span.start
  last : ∀ start, openAt = some start → start < position ∧ content[start]? ≠ some 0x0A ∧
    ∀ word ∈ found, word.span.stop ≤ start

namespace Words

variable {content : Text} {position : Nat} {found : List Word} {openAt : Option Nat}

/-- Nothing new. -/
theorem succ (words : Words content position found openAt) :
    Words content (position + 1) found openAt where
  bounded word member :=
    ⟨(words.bounded word member).1, Nat.le_succ_of_le (words.bounded word member).2⟩
  ordered := words.ordered
  last start isOpen := by
    obtain ⟨before, rest⟩ := words.last start isOpen
    exact ⟨Nat.lt_succ_of_lt before, rest⟩

/-- A word begins. -/
theorem opened (words : Words content position found none)
    (begins : content[position]? ≠ some 0x0A) :
    Words content (position + 1) found (some position) where
  bounded := words.succ.bounded
  ordered := words.ordered
  last := by
    rintro _ ⟨⟩
    exact ⟨Nat.lt_succ_self _, begins, fun word member => (words.bounded word member).2⟩

/-- The open word ends. -/
theorem closed {start : Nat} (words : Words content position found (some start)) (text : Text)
    (inside : position ≤ content.length)
    (ends : content.SplitsBreak position → 0x0D ∈ text) :
    Words content position (⟨text, ⟨start, position⟩⟩ :: found) none where
  bounded := by
    obtain ⟨before, begins, _⟩ := words.last start rfl
    exact List.forall_mem_cons.mpr ⟨⟨⟨before, inside, begins, ends⟩, Nat.le_refl _⟩, words.bounded⟩
  ordered := .cons (words.last start rfl).2.2 words.ordered
  last _ isOpen := by cases isOpen

/-- Words are left out. -/
theorem sublist {kept : List Word} (words : Words content position found openAt)
    (part : kept.Sublist found) : Words content position kept openAt where
  bounded word member := words.bounded word (part.subset member)
  ordered := words.ordered.sublist part
  last start isOpen := by
    obtain ⟨before, begins, after⟩ := words.last start isOpen
    exact ⟨before, begins, fun word member => after word (part.subset member)⟩

end Words

/-! ### The machine -/

namespace Splitter

/-- All words of a machine, the last first. -/
def found (splitter : Splitter) : List Word :=
  splitter.words ++ splitter.commands.flatMap List.reverse

/-- Where the open word of a machine begins. -/
def openAt (splitter : Splitter) : Option Nat := splitter.word.map OpenWord.start

theorem openAt_of_no_word {splitter : Splitter} (isNone : splitter.word = none) :
    none = splitter.openAt := by
  rw [openAt, isNone]
  rfl

theorem openAt_append (splitter : Splitter) (units : Text) :
    (splitter.append units).openAt = splitter.openAt := by
  obtain ⟨_, _, _, _, word, _⟩ := splitter
  cases word <;> rfl

variable {content : Text} {position : Nat} {splitter : Splitter}

theorem words_append {units : Text}
    (words : Words content position splitter.found splitter.openAt) :
    Words content position (splitter.append units).found (splitter.append units).openAt := by
  rw [openAt_append]
  exact words

theorem words_openWord (words : Words content position splitter.found splitter.openAt)
    (begins : content[position]? ≠ some 0x0A) :
    Words content (position + 1) (splitter.openWord position).found
      (splitter.openWord position).openAt := by
  rw [openWord]
  split
  · exact words.succ
  case h_2 isNone =>
    rw [openAt, isNone] at words
    exact words.opened begins

theorem words_closeWord (words : Words content position splitter.found splitter.openAt)
    (inside : position ≤ content.length)
    (ends : content.SplitsBreak position → ∀ word, splitter.word = some word → 0x0D ∈ word.text) :
    Words content position (splitter.closeWord position).found none := by
  rw [closeWord]
  split
  case h_1 word isSome =>
    rw [openAt, isSome] at words
    exact words.closed word.text inside fun splits => ends splits word isSome
  case h_2 isNone =>
    rw [openAt, isNone] at words
    exact words

theorem word_closeWord : (splitter.closeWord position).word = none := by
  rw [closeWord]
  split
  · rfl
  · assumption

/-- The end of a command keeps its words, but for those that introduce it. -/
theorem found_closeCommand_sublist :
    (splitter.closeCommand position).found.Sublist (splitter.closeWord position).found := by
  have kept : (Command.dropReserved (splitter.closeWord position).words.reverse).reverse.Sublist
      (splitter.closeWord position).words := by
    have part := (List.dropWhile_sublist (l := (splitter.closeWord position).words.reverse)
      Word.isReserved).reverse
    rwa [List.reverse_reverse] at part
  rw [closeCommand]
  split
  · exact List.sublist_append_right _ _
  · exact kept.append_right _

theorem word_closeCommand : (splitter.closeCommand position).word = none := by
  rw [closeCommand]
  split <;> exact word_closeWord

theorem words_closeCommand (words : Words content position splitter.found splitter.openAt)
    (inside : position ≤ content.length)
    (ends : content.SplitsBreak position → ∀ word, splitter.word = some word → 0x0D ∈ word.text) :
    Words content position (splitter.closeCommand position).found none :=
  (words_closeWord words inside ends).sublist found_closeCommand_sublist

/-! ### Reading a unit -/

/-- In these modes no word is open. -/
def Mode.isBetweenWords : Mode → Bool
  | .plain | .singleQuoted | .doubleQuoted | .escaped | .continuation | .quotedEscape => false
  | .comment | .operatorTail | .operatorHyphen | .delimiterGap _ | .delimiter _ _ | .body _ => true

/-- What a machine is that has read a text up to a position, where the last unit was a given one. -/
structure After (content : Text) (position : Nat) (last : Option CodeUnit) (splitter : Splitter) :
    Prop where
  words : Words content position splitter.found splitter.openAt
  between : Mode.isBetweenWords splitter.mode = true → splitter.word = none
  /-- A carriage return outside of quotes ends the word unless it belongs to it. -/
  taken : splitter.mode = .plain → last = some 0x0D →
    ∀ word, splitter.word = some word → 0x0D ∈ word.text
  /-- A backslash goes on in the next line before a line feed only. -/
  continues : splitter.mode = .continuation → content[position]? = some 0x0A

variable {last : Option CodeUnit} {unit : CodeUnit} {rest : Text}

/-- A machine without an open word. -/
theorem After.of_no_word (words : Words content position splitter.found none)
    (isNone : splitter.word = none) (notContinuation : splitter.mode ≠ .continuation) :
    After content position last splitter where
  words := by
    rw [openAt, isNone]
    exact words
  between _ := isNone
  taken _ _ word isSome := by
    rw [isNone] at isSome
    cases isSome
  continues isContinuation := absurd isContinuation notContinuation

/-- A machine that may be in a word and has not read a bare carriage return. -/
theorem After.of_word (words : Words content position splitter.found splitter.openAt)
    (within : Mode.isBetweenWords splitter.mode = false)
    (notReturn : splitter.mode = .plain → last ≠ some 0x0D)
    (notContinuation : splitter.mode ≠ .continuation) : After content position last splitter where
  words := words
  between isBetween := by
    rw [within] at isBetween
    cases isBetween
  taken isPlain isReturn := absurd isReturn (notReturn isPlain)
  continues isContinuation := absurd isContinuation notContinuation

@[simp] theorem mode_append (units : Text) : (splitter.append units).mode = splitter.mode := rfl

@[simp] theorem mode_openWord : (splitter.openWord position).mode = splitter.mode := by
  rw [openWord]
  split <;> rfl

@[simp] theorem mode_closeWord : (splitter.closeWord position).mode = splitter.mode := by
  rw [closeWord]
  split <;> rfl

@[simp] theorem mode_closeCommand : (splitter.closeCommand position).mode = splitter.mode := by
  rw [closeCommand]
  split <;> simp

theorem mode_endLine_ne (splitter : Splitter) (position : Nat) :
    (splitter.endLine position).mode ≠ .continuation := by
  rw [endLine]
  dsimp only
  split <;> simp

theorem getElem?_of_drop (here : content.drop position = unit :: rest) :
    content[position]? = some unit := by
  rw [← List.head?_drop, here]
  rfl

theorem drop_succ_of_drop (here : content.drop position = unit :: rest) :
    content.drop (position + 1) = rest := by
  rw [← List.tail_drop, here]
  rfl

theorem position_le_of_drop (here : content.drop position = unit :: rest) :
    position ≤ content.length := by
  have length := congrArg List.length here
  rw [List.length_drop, List.length_cons] at length
  omega

/-- Reading a unit outside of quotes. The unit before the position may end a line, together with the
one at it, only if no word is open or the open word has taken it. -/
theorem after_readPlain (words : Words content position splitter.found splitter.openAt)
    (here : content.drop position = unit :: rest) (plain : splitter.mode = .plain)
    (ends : content.SplitsBreak position → ∀ word, splitter.word = some word → 0x0D ∈ word.text) :
    After content (position + 1) (some unit) (splitter.readPlain position unit rest) := by
  have inside := position_le_of_drop here
  have opens (unlike : unit ≠ 0x0A) : Words content (position + 1)
      (splitter.openWord position).found (splitter.openWord position).openAt :=
    words_openWord words
      (by rw [getElem?_of_drop here]; exact fun same => unlike (Option.some.inj same))
  have grows (unlike : unit ≠ 0x0A) (notReturn : unit ≠ 0x0D) :
      After content (position + 1) (some unit) ((splitter.openWord position).append [unit]) :=
    .of_word (words_append (opens unlike)) (by simp [plain, Mode.isBetweenWords])
      (fun _ same => notReturn (Option.some.inj same)) (by simp [plain])
  have closes := (words_closeWord words inside ends).succ
  have ended := (words_closeCommand words inside ends).succ
  unfold readPlain
  split
  case isTrue isBackslash =>
    subst isBackslash
    split
    · exact grows (by decide) (by decide)
    · split
      case h_2.isTrue next _ isFeed =>
        refine ⟨words.succ, by simp [Mode.isBetweenWords], by simp, fun _ => ?_⟩
        rw [← isFeed]
        exact getElem?_of_drop (drop_succ_of_drop here)
      · exact .of_word (opens (by decide)) rfl (by simp) (by simp)
  split
  case isTrue isQuote =>
    subst isQuote
    exact .of_word (opens (by decide)) rfl (by simp) (by simp)
  split
  case isTrue isQuote =>
    subst isQuote
    exact .of_word (opens (by decide)) rfl (by simp) (by simp)
  split
  case isTrue isComment =>
    rw [Bool.and_eq_true, Option.isNone_iff_eq_none] at isComment
    rw [openAt, isComment.2] at words
    exact .of_no_word words.succ isComment.2 (by simp)
  split
  case isTrue => exact .of_no_word closes word_closeWord (by simp)
  split
  case isTrue isAmpersand =>
    rw [Bool.and_eq_true, decide_eq_true_eq] at isAmpersand
    rw [isAmpersand.1] at grows ⊢
    exact grows (by decide) (by decide)
  split
  case isTrue => exact .of_no_word ended word_closeCommand (mode_endLine_ne _ _)
  split
  case isTrue => exact .of_no_word ended word_closeCommand (by simp [plain])
  split
  case isTrue => exact .of_no_word closes word_closeWord (by simp [plain])
  case isFalse notFeed _ notBlank =>
    refine grows notFeed ?_
    rintro rfl
    exact notBlank (by decide)

/-- A unit of a delimiter is in no word. The one that ends the delimiter is read as a plain one. -/
theorem after_readDelimiter (words : Words content position splitter.found none)
    (isNone : splitter.word = none) (here : content.drop position = unit :: rest)
    (stripsTabs : Bool) (reader : DelimiterReader) :
    After content (position + 1) (some unit)
      (splitter.readDelimiter stripsTabs reader position unit rest) := by
  have goOn (reader : DelimiterReader) : After content (position + 1) (some unit)
      { splitter with mode := .delimiter stripsTabs reader } :=
    .of_no_word words.succ isNone (by simp)
  unfold readDelimiter
  dsimp only
  split
  · exact goOn _
  split
  · split
    · exact goOn _
    · exact goOn _
  · split
    · exact goOn _
    split
    · exact goOn _
    split
    · refine after_readPlain (openAt_of_no_word isNone ▸ words) here rfl ?_
      intro _ word isSome
      exact absurd (isNone.symm.trans isSome) (by simp)
    · exact goOn _

theorem after_readDelimiterGap (words : Words content position splitter.found none)
    (isNone : splitter.word = none) (here : content.drop position = unit :: rest)
    (stripsTabs : Bool) :
    After content (position + 1) (some unit)
      (splitter.readDelimiterGap stripsTabs position unit rest) := by
  rw [readDelimiterGap]
  split
  · exact .of_no_word words.succ isNone (by simp)
  · exact after_readDelimiter words isNone here stripsTabs {}

theorem after_endBodyLine (words : Words content position splitter.found none)
    (isNone : splitter.word = none) (line : Text) :
    After content (position + 1) last (splitter.endBodyLine line) := by
  rw [endBodyLine]
  split
  · exact .of_no_word words.succ isNone (by simp)
  · split
    · exact .of_no_word words.succ isNone (by dsimp only; split <;> simp)
    · exact .of_no_word words.succ isNone (by simp)

/-- Reading a unit in any mode, where the machine knows the unit before it. -/
theorem After.read (after : After content position splitter.previous splitter)
    (known : content.SplitsBreak position → splitter.previous = some 0x0D)
    (here : content.drop position = unit :: rest) :
    After content (position + 1) (some unit) (splitter.read position unit rest) := by
  obtain ⟨words, between, taken, continues⟩ := after
  have idle (isNone : splitter.word = none) : Words content position splitter.found none :=
    openAt_of_no_word isNone ▸ words
  rw [Splitter.read]
  split
  case h_1 plain =>
    exact after_readPlain words here plain fun splits => taken plain (known splits)
  case h_2 quoted =>
    split
    case isTrue isQuote =>
      subst isQuote
      exact .of_word words.succ rfl (by simp) (by simp)
    · exact .of_word (words_append words.succ) (by simp [quoted, Mode.isBetweenWords])
        (by simp [quoted]) (by simp [quoted])
  case h_3 quoted =>
    split
    · exact .of_word words.succ rfl (by simp) (by simp)
    split
    case isTrue isQuote =>
      rw [isQuote]
      exact .of_word words.succ rfl (fun _ => by decide) (by simp)
    · exact .of_word (words_append words.succ) (by simp [quoted, Mode.isBetweenWords])
        (by simp [quoted]) (by simp [quoted])
  case h_4 =>
    refine ⟨words_append words.succ, by simp [Mode.isBetweenWords], ?_, by simp⟩
    intro _ isReturn word isSome
    obtain ⟨before, _, rfl⟩ := Option.map_eq_some_iff.mp isSome
    cases isReturn
    exact List.mem_append_right _ List.mem_cons_self
  case h_5 continuation =>
    have isFeed := (getElem?_of_drop here).symm.trans (continues continuation)
    exact .of_word words.succ rfl (by simp [isFeed]) (by simp)
  case h_6 => exact .of_word (words_append words.succ) rfl (by simp) (by simp)
  -- In the other modes there is no open word.
  case h_7 comment =>
    have isNone := between (by rw [comment]; rfl)
    split
    · refine .of_no_word (words_closeCommand words (position_le_of_drop here) ?_).succ
        word_closeCommand (mode_endLine_ne _ _)
      intro _ word isSome
      exact absurd (isNone.symm.trans isSome) (by simp)
    · exact .of_no_word (idle isNone).succ isNone (by simp [comment])
  case h_8 tail =>
    have isNone := between (by rw [tail]; rfl)
    exact .of_no_word (idle isNone).succ isNone (by simp)
  case h_9 hyphen =>
    have isNone := between (by rw [hyphen]; rfl)
    split
    · exact .of_no_word (idle isNone).succ isNone (by simp)
    · exact after_readDelimiterGap (idle isNone) isNone here false
  case h_10 stripsTabs gap =>
    have isNone := between (by rw [gap]; rfl)
    exact after_readDelimiterGap (idle isNone) isNone here stripsTabs
  case h_11 stripsTabs reader delimiter =>
    have isNone := between (by rw [delimiter]; rfl)
    exact after_readDelimiter (idle isNone) isNone here stripsTabs reader
  case h_12 line body =>
    have isNone := between (by rw [body]; rfl)
    split
    · exact after_endBodyLine (idle isNone) isNone line
    · exact .of_no_word (idle isNone).succ isNone (by simp)

/-! ### The whole text -/

/-- The machine has read a text up to a position. -/
structure Reached (content : Text) (position : Nat) (splitter : Splitter) : Prop where
  after : After content position splitter.previous splitter
  previous : splitter.previous = (content.take position).getLast?

theorem reached_start (content : Text) : Reached content 0 {} :=
  ⟨.of_no_word ⟨by simp [found], by simp [found], by simp⟩ rfl (by simp), rfl⟩

theorem Reached.step (reached : Reached content position splitter)
    (here : content.drop position = unit :: rest) :
    Reached content (position + 1) (splitter.step position unit rest) := by
  have known : content.SplitsBreak position → splitter.previous = some 0x0D := by
    rintro ⟨positive, before, _⟩
    rw [reached.previous, List.getLast?_eq_getElem?, List.length_take,
      Nat.min_eq_left (position_le_of_drop here),
      List.getElem?_take_of_lt (Nat.sub_lt positive Nat.one_pos), before]
  have after := reached.after.read known here
  refine ⟨⟨after.words, after.between, after.taken, after.continues⟩, ?_⟩
  rw [List.take_add_one, getElem?_of_drop here, Option.toList_some, List.getLast?_concat]
  rfl

/-- The machine at the end of a text that begins at a position. -/
theorem Reached.run (reached : Reached content position splitter)
    (here : content.drop position = rest) :
    Reached content (position + rest.length) (splitter.run position rest) := by
  induction rest generalizing position splitter with
  | nil => exact reached
  | cons unit rest inductionHypothesis =>
    have next := inductionHypothesis (reached.step here) (drop_succ_of_drop here)
    rw [List.length_cons, Nat.add_comm rest.length, ← Nat.add_assoc]
    exact next

end Splitter

/-- The words of the commands of a text lie in it, one after another. -/
theorem words_of_commands? (content : Text) (commands : List Command)
    (splits : commands? content = some commands) :
    (∀ word ∈ commands.flatten, word.In content) ∧
      commands.flatten.Pairwise fun earlier later => earlier.span.stop ≤ later.span.start := by
  have atStart : content.drop 0 = content := rfl
  have reached := (Splitter.reached_start content).run atStart
  rw [Nat.zero_add] at reached
  rw [commands?] at splits
  split at splits
  · cases splits
  · cases splits
    have words := Splitter.words_closeCommand reached.after.words (Nat.le_refl _)
      fun splits => absurd splits content.not_splitsBreak_length
    generalize Splitter.closeCommand _ _ = splitter at words ⊢
    have kept : splitter.commands.reverse.flatten.reverse =
        splitter.commands.flatMap List.reverse := by
      rw [List.reverse_flatten, List.map_reverse, List.reverse_reverse]
      rfl
    have words := words.sublist (List.sublist_append_right splitter.words _)
    rw [← kept] at words
    exact ⟨fun word member => (words.bounded word (List.mem_reverse.mpr member)).1,
      List.pairwise_reverse.mp words.ordered⟩

end SourceLint.Shell
