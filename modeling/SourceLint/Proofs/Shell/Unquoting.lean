/-
This file says what the words of a shell text are made of. The text of a word is what is left of its
part of the text when the quotes are removed from it. The machine removes them while it reads, so
the invariant says what becomes of the part up to any later place: the text of the open word as far
as it is read, and behind it what is left of the units still to come. What is left of those depends
on the mode, and on a backslash that is read already.
-/
import SourceLint.Proofs.Shell.WordEnd

namespace SourceLint.Shell

/-! ### The removal of quotes -/

/-- The quotes around a unit. -/
inductive Quoting where
  | outside
  | single
  | double
  deriving DecidableEq, Repr

/-- The units between double quotes before which a backslash is taken away. -/
def isEscapable (unit : CodeUnit) : Bool := ("\"$\x60\\" : Text).contains unit

/-- What is left of a text without its quotes, where the first unit stands within given ones. Within
single quotes every unit stands for itself. Elsewhere a backslash goes with the line feed behind
it. Before another unit it goes alone, but between double quotes it stays if the unit has no need of
it. At the end of the text it stays. -/
def unquote : Quoting → Text → Text
  | _, [] => []
  | .outside, unit :: rest =>
    if unit = '\\' then
      match rest with
      | [] => [unit]
      | next :: more =>
        if next = 0x0A then unquote .outside more else next :: unquote .outside more
    else if unit = 0x27 then unquote .single rest
    else if unit = '"' then unquote .double rest
    else unit :: unquote .outside rest
  | .single, unit :: rest =>
    if unit = 0x27 then unquote .outside rest else unit :: unquote .single rest
  | .double, unit :: rest =>
    if unit = '\\' then
      match rest with
      | [] => [unit]
      | next :: more =>
        if next = 0x0A then unquote .double more
        else if isEscapable next then next :: unquote .double more
        else unit :: next :: unquote .double more
    else if unit = '"' then unquote .outside rest
    else unit :: unquote .double rest

@[simp] theorem unquote_nil (quoting : Quoting) : unquote quoting [] = [] := by
  rw [unquote]

section Cons

variable {unit : CodeUnit} (rest : Text)

theorem unquote_outside_cons (notBackslash : unit ≠ '\\') (notSingle : unit ≠ 0x27)
    (notDouble : unit ≠ '"') :
    unquote .outside (unit :: rest) = unit :: unquote .outside rest := by
  rw [unquote.eq_def]
  simp only [if_neg notBackslash, if_neg notSingle, if_neg notDouble]

theorem unquote_single_cons (notSingle : unit ≠ 0x27) :
    unquote .single (unit :: rest) = unit :: unquote .single rest := by
  rw [unquote.eq_def]
  simp only [if_neg notSingle]

theorem unquote_double_cons (notBackslash : unit ≠ '\\') (notDouble : unit ≠ '"') :
    unquote .double (unit :: rest) = unit :: unquote .double rest := by
  rw [unquote.eq_def]
  simp only [if_neg notBackslash, if_neg notDouble]

end Cons

theorem unquote_double_escape (unit : CodeUnit) (rest : Text) :
    unquote .double ('\\' :: unit :: rest) =
      (if unit = 0x0A then [] else if isEscapable unit then [unit] else ['\\', unit]) ++
        unquote .double rest := by
  rw [unquote.eq_def]
  simp only [if_pos]
  split
  · rfl
  · split <;> rfl

/-- What is left of the units that the machine still reads for the open word. -/
def Mode.leaves : Mode → Text → Text
  | .singleQuoted, text => unquote .single text
  | .doubleQuoted, text => unquote .double text
  | .quotedEscape, text => unquote .double ('\\' :: text)
  | .escaped, text => unquote .outside ('\\' :: text)
  | .continuation, text => unquote .outside ('\\' :: text)
  | _, text => unquote .outside text

namespace Splitter

/-! ### Reading a unit -/

/-- The open word holds what is left of its part of the text so far: up to any later place, it is
followed by what is left of the units up to there. -/
structure Unquotes (content : Text) (position : Nat) (splitter : Splitter) : Prop where
  word : ∀ word, splitter.word = some word → ∀ stop, position ≤ stop → stop ≤ content.length →
    unquote .outside (content.slice word.start stop) =
      word.text ++ splitter.mode.leaves (content.slice position stop)
  /-- A line feed behind a backslash is not taken as it is. -/
  escaped : splitter.mode = .escaped → content[position]? ≠ some 0x0A

variable {content : Text} {position : Nat} {splitter next : Splitter} {unit : CodeUnit}
  {rest : Text}

/-- Nothing is said of a machine without an open word. -/
theorem Unquotes.of_no_word (isNone : splitter.word = none)
    (notEscaped : splitter.mode ≠ .escaped) : Unquotes content position splitter where
  word word isOpen := by
    rw [isNone] at isOpen
    cases isOpen
  escaped isEscaped := absurd isEscaped notEscaped

/-- A word that begins has nothing yet. -/
theorem Unquotes.openWord (unquotes : Unquotes content position splitter)
    (plain : splitter.mode = .plain) :
    Unquotes content position (splitter.openWord position) := by
  rw [Splitter.openWord]
  split
  · exact unquotes
  · refine ⟨?_, by simp [plain]⟩
    rintro _ ⟨⟩ stop _ _
    rw [plain]
    rfl

/-- Reading a unit keeps the invariant if what it adds to the open word is what is left of it. -/
theorem Unquotes.succ (unquotes : Unquotes content position splitter)
    (here : content.drop position = unit :: rest) (added : Text)
    (grows : next.word = (splitter.append added).word)
    (leaves : ∀ more, more <+: rest →
      splitter.mode.leaves (unit :: more) = added ++ next.mode.leaves more)
    (escaped : next.mode = .escaped → rest.head? ≠ some 0x0A) :
    Unquotes content (position + 1) next where
  word := by
    intro word isOpen stop behind inside
    rw [grows] at isOpen
    obtain ⟨before, isBefore, rfl⟩ := Option.map_eq_some_iff.mp isOpen
    obtain ⟨count, rfl⟩ := Nat.exists_eq_add_of_le behind
    have isRest := drop_succ_of_drop here
    have wider : content.slice position (position + 1 + count) =
        unit :: content.slice (position + 1) (position + 1 + count) := by
      rw [Text.slice, Text.slice, here, isRest, Nat.add_assoc, Nat.add_sub_cancel_left,
        ← Nat.add_assoc, Nat.add_sub_cancel_left, Nat.add_comm 1, List.take_succ_cons]
    have isPrefix : content.slice (position + 1) (position + 1 + count) <+: rest := by
      rw [Text.slice, isRest]
      exact List.take_prefix _ _
    rw [unquotes.word before isBefore _ (by omega) inside, wider, leaves _ isPrefix,
      List.append_assoc]
  escaped isEscaped := by
    rw [← List.head?_drop, drop_succ_of_drop here]
    exact escaped isEscaped

/-- Reading a unit that adds nothing to the open word. -/
theorem Unquotes.kept (unquotes : Unquotes content position splitter)
    (here : content.drop position = unit :: rest) (sameWord : next.word = splitter.word)
    (leaves : ∀ more, splitter.mode.leaves (unit :: more) = next.mode.leaves more)
    (escaped : next.mode = .escaped → rest.head? ≠ some 0x0A) :
    Unquotes content (position + 1) next := by
  have nothing : (splitter.append []).word = splitter.word := by
    rw [append]
    cases splitter.word <;> simp
  exact unquotes.succ here [] (sameWord.trans nothing.symm) (fun more _ => leaves more) escaped

/-- A unit outside of quotes that stands for itself goes to the open word. -/
theorem Unquotes.taken (unquotes : Unquotes content position splitter)
    (here : content.drop position = unit :: rest) (plain : splitter.mode = .plain)
    (notBackslash : unit ≠ '\\') (notSingle : unit ≠ 0x27) (notDouble : unit ≠ '"') :
    Unquotes content (position + 1) ((splitter.openWord position).append [unit]) := by
  have stillPlain : (splitter.openWord position).mode = .plain := mode_openWord.trans plain
  refine (unquotes.openWord plain).succ here [unit] rfl (fun more _ => ?_) (by simp [plain])
  rw [mode_append, stillPlain]
  exact unquote_outside_cons more notBackslash notSingle notDouble

theorem unquotes_readPlain (unquotes : Unquotes content position splitter)
    (here : content.drop position = unit :: rest) (plain : splitter.mode = .plain) :
    Unquotes content (position + 1) (splitter.readPlain position unit rest) := by
  have opened := unquotes.openWord plain
  have stillPlain : (splitter.openWord position).mode = .plain := mode_openWord.trans plain
  unfold readPlain
  split
  case isTrue isBackslash =>
    subst isBackslash
    split
    case h_1 =>
      refine opened.succ here [_] rfl (fun more isPrefix => ?_) (by simp [plain])
      rw [List.prefix_nil.mp isPrefix, mode_append, stillPlain]
      rfl
    case h_2 next more =>
      split
      · exact unquotes.kept here rfl (fun more => by rw [plain]; rfl) (by simp)
      case isFalse notFeed =>
        exact opened.kept here rfl (fun more => by rw [stillPlain]; rfl)
          fun _ same => notFeed (Option.some.inj same)
  case isFalse notBackslash =>
  split
  case isTrue isQuote =>
    subst isQuote
    exact opened.kept here rfl (fun more => by rw [stillPlain]; cases more <;> rfl) (by simp)
  case isFalse notSingle =>
  split
  case isTrue isQuote =>
    subst isQuote
    exact opened.kept here rfl (fun more => by rw [stillPlain]; cases more <;> rfl) (by simp)
  case isFalse notDouble =>
  split
  case isTrue isComment =>
    rw [Bool.and_eq_true, Option.isNone_iff_eq_none] at isComment
    exact .of_no_word isComment.2 (by simp)
  split
  · exact .of_no_word word_closeWord (by simp)
  split
  · exact unquotes.taken here plain notBackslash notSingle notDouble
  split
  · exact .of_no_word word_closeCommand mode_endLine_ne_escaped
  split
  · exact .of_no_word word_closeCommand (by simp [plain])
  split
  · exact .of_no_word word_closeWord (by simp [plain])
  · exact unquotes.taken here plain notBackslash notSingle notDouble

theorem unquotes_readDelimiter (isNone : splitter.word = none)
    (here : content.drop position = unit :: rest) (stripsTabs : Bool) (reader : DelimiterReader) :
    Unquotes content (position + 1)
      (splitter.readDelimiter stripsTabs reader position unit rest) := by
  have goOn (reader : DelimiterReader) : Unquotes content (position + 1)
      { splitter with mode := .delimiter stripsTabs reader } := .of_no_word isNone (by simp)
  unfold readDelimiter
  dsimp only
  repeat' split
  any_goals exact goOn _
  exact unquotes_readPlain (.of_no_word isNone (by simp)) here rfl

theorem unquotes_readDelimiterGap (isNone : splitter.word = none)
    (here : content.drop position = unit :: rest) (stripsTabs : Bool) :
    Unquotes content (position + 1)
      (splitter.readDelimiterGap stripsTabs position unit rest) := by
  rw [readDelimiterGap]
  split
  · exact .of_no_word isNone (by simp)
  · exact unquotes_readDelimiter isNone here stripsTabs {}

theorem mode_endBodyLine_ne_escaped (line : Text) :
    (splitter.endBodyLine line).mode ≠ .escaped := by
  rw [endBodyLine]
  split
  · simp
  · split
    · dsimp only
      split <;> simp
    · simp

theorem Unquotes.read (unquotes : Unquotes content position splitter)
    (after : After content position splitter.previous splitter)
    (here : content.drop position = unit :: rest) :
    Unquotes content (position + 1) (splitter.read position unit rest) := by
  obtain ⟨_, between, _, continues⟩ := after
  have isUnit := getElem?_of_drop here
  rw [Splitter.read]
  split
  case h_1 plain => exact unquotes_readPlain unquotes here plain
  case h_2 quoted =>
    split
    case isTrue isQuote =>
      subst isQuote
      exact unquotes.kept here rfl (fun more => by rw [quoted]; rfl) (by simp)
    case isFalse notQuote =>
      refine unquotes.succ here [unit] rfl (fun more _ => ?_) (by simp [quoted])
      rw [mode_append, quoted]
      exact unquote_single_cons more notQuote
  case h_3 quoted =>
    split
    case isTrue isEscape =>
      rw [Bool.and_eq_true, decide_eq_true_eq] at isEscape
      exact unquotes.kept here rfl (fun more => by rw [quoted, isEscape.1]; rfl) (by simp)
    case isFalse notEscape =>
    split
    case isTrue isQuote =>
      subst isQuote
      exact unquotes.kept here rfl (fun more => by rw [quoted]; cases more <;> rfl) (by simp)
    case isFalse notQuote =>
      refine unquotes.succ here [unit] rfl (fun more isPrefix => ?_) (by simp [quoted])
      rw [mode_append, quoted]
      by_cases isBackslash : unit = '\\'
      -- A backslash that is not taken for one is the last unit.
      · have isLast : rest = [] := by simpa [isBackslash] using notEscape
        have noMore : more = [] := List.prefix_nil.mp (isLast ▸ isPrefix)
        rw [noMore, isBackslash]
        rfl
      · exact unquote_double_cons more isBackslash notQuote
  case h_4 escaped =>
    refine unquotes.succ here [unit] rfl (fun more _ => ?_) (by simp)
    have notFeed : unit ≠ 0x0A := fun same => unquotes.escaped escaped (same ▸ isUnit)
    rw [escaped]
    exact if_neg notFeed
  case h_5 continuation =>
    have isFeed := Option.some.inj (isUnit.symm.trans (continues continuation))
    subst isFeed
    exact unquotes.kept here rfl (fun more => by rw [continuation]; rfl) (by simp)
  case h_6 quoted =>
    refine unquotes.succ here _ rfl (fun more _ => ?_) (by simp)
    rw [quoted]
    exact unquote_double_escape unit more
  -- In the other modes there is no open word.
  case h_7 comment =>
    split
    · exact .of_no_word word_closeCommand mode_endLine_ne_escaped
    · exact .of_no_word (between (by rw [comment]; rfl)) (by simp [comment])
  case h_8 tail => exact .of_no_word (between (by rw [tail]; rfl)) (by simp)
  case h_9 hyphen =>
    have isNone := between (by rw [hyphen]; rfl)
    split
    · exact .of_no_word isNone (by simp)
    · exact unquotes_readDelimiterGap isNone here false
  case h_10 stripsTabs gap =>
    exact unquotes_readDelimiterGap (between (by rw [gap]; rfl)) here stripsTabs
  case h_11 stripsTabs reader delimiter =>
    exact unquotes_readDelimiter (between (by rw [delimiter]; rfl)) here stripsTabs reader
  case h_12 line body =>
    have isNone := between (by rw [body]; rfl)
    split
    · exact .of_no_word ((word_endBodyLine line).trans isNone) (mode_endBodyLine_ne_escaped line)
    · exact .of_no_word isNone (by simp)

theorem unquotes_upTo (inside : position ≤ content.length) :
    Unquotes content position (upTo content position) := by
  induction position with
  | zero => exact .of_no_word rfl (by simp [upTo, runTo])
  | succ position inductionHypothesis =>
    obtain ⟨unit, rest, here⟩ := exists_drop_eq_cons inside
    have before := Nat.le_of_lt inside
    rw [upTo_succ here]
    have read := (inductionHypothesis before).read (reached_upTo before).after here
    exact ⟨read.word, read.escaped⟩

end Splitter

/-- A word that ends outside of quotes is what is left of its part of the text. -/
theorem Word.EndsIn.text_eq {content : Text} {word : Word} (endsIn : word.EndsIn content)
    (inside : word.span.stop ≤ content.length) :
    word.text = unquote .outside (word.span.text content) := by
  have unquotes := (Splitter.unquotes_upTo inside).word _ endsIn.isOpen _ (Nat.le_refl _) inside
  have nothing : content.slice word.span.stop word.span.stop = [] := by
    rw [Text.slice, Nat.sub_self, List.take_zero]
  rw [endsIn.plain, nothing, Mode.leaves, unquote_nil, List.append_nil] at unquotes
  · exact unquotes.symm
  all_goals simp

/-! ### Commands -/

/-- A command has a first word, which does not introduce it. -/
def Command.Begins (command : Command) : Prop :=
  ∃ first rest, command = first :: rest ∧ first.isReserved = false

namespace Splitter

variable {position : Nat} {splitter : Splitter} {unit : CodeUnit} {rest : Text}

@[simp] theorem commands_append (units : Text) :
    (splitter.append units).commands = splitter.commands := rfl

@[simp] theorem commands_openWord : (splitter.openWord position).commands = splitter.commands := by
  rw [openWord]
  split <;> rfl

@[simp] theorem commands_closeWord :
    (splitter.closeWord position).commands = splitter.commands := by
  rw [closeWord]
  split <;> rfl

/-- The commands that are found begin with a word that does not introduce them. -/
def AllBegin (splitter : Splitter) : Prop := ∀ command ∈ splitter.commands, command.Begins

theorem AllBegin.closeCommand (begin : splitter.AllBegin) :
    (splitter.closeCommand position).AllBegin := by
  rw [Splitter.closeCommand]
  split
  · exact fun command member => begin command (commands_closeWord ▸ member)
  case h_2 command notEmpty =>
    refine List.forall_mem_cons.mpr
      ⟨?_, fun other member => begin other (commands_closeWord ▸ member)⟩
    obtain ⟨first, more, kept⟩ := List.exists_cons_of_ne_nil notEmpty
    have begins := List.head?_dropWhile_not Word.isReserved
      (splitter.closeWord position).words.reverse
    rw [Command.dropReserved] at kept
    rw [kept, List.head?_cons] at begins
    exact ⟨first, more, kept, begins⟩

theorem AllBegin.readPlain (begin : splitter.AllBegin) :
    (splitter.readPlain position unit rest).AllBegin := by
  have same {next : Splitter} (same : next.commands = splitter.commands) : next.AllBegin :=
    fun command member => begin command (same ▸ member)
  unfold Splitter.readPlain
  repeat' split
  any_goals exact begin.closeCommand
  all_goals exact same (by simp)

theorem AllBegin.readDelimiter (begin : splitter.AllBegin) (stripsTabs : Bool)
    (reader : DelimiterReader) :
    (splitter.readDelimiter stripsTabs reader position unit rest).AllBegin := by
  unfold Splitter.readDelimiter
  dsimp only
  repeat' split
  any_goals exact begin
  exact AllBegin.readPlain begin

theorem AllBegin.readDelimiterGap (begin : splitter.AllBegin) (stripsTabs : Bool) :
    (splitter.readDelimiterGap stripsTabs position unit rest).AllBegin := by
  rw [Splitter.readDelimiterGap]
  split
  · exact begin
  · exact begin.readDelimiter stripsTabs {}

theorem AllBegin.endBodyLine (begin : splitter.AllBegin) (line : Text) :
    (splitter.endBodyLine line).AllBegin := by
  rw [Splitter.endBodyLine]
  repeat' split
  all_goals exact begin

theorem AllBegin.step (begin : splitter.AllBegin) :
    (splitter.step position unit rest).AllBegin := by
  suffices read : (splitter.read position unit rest).AllBegin from read
  rw [Splitter.read]
  cases splitter.mode <;> dsimp only
  case plain => exact begin.readPlain
  case delimiterGap => exact begin.readDelimiterGap _
  case delimiter => exact begin.readDelimiter _ _
  all_goals
    repeat' split
    any_goals exact begin
  case comment => exact begin.closeCommand
  case operatorHyphen => exact begin.readDelimiterGap _
  case body => exact begin.endBodyLine _

theorem AllBegin.run (begin : splitter.AllBegin) (text : Text) :
    (splitter.run position text).AllBegin := by
  induction text generalizing splitter position with
  | nil => exact begin
  | cons unit rest inductionHypothesis => exact inductionHypothesis begin.step

end Splitter

theorem begins_of_commands? {content : Text} {commands : List Command}
    (splits : commands? content = some commands) : ∀ command ∈ commands, command.Begins := by
  rw [commands?] at splits
  split at splits
  · cases splits
  · cases splits
    intro command member
    have begin : ({} : Splitter).AllBegin := fun command member => absurd member List.not_mem_nil
    exact (begin.run content).closeCommand command (List.mem_reverse.mp member)

/-- What the splitting of a text into commands gives: words with proper places in the text, one
behind the other, each of them what is left of its place without the quotes, in commands that have
a first word and none that introduces them. -/
theorem unquoted_of_commands? {content : Text} {commands : List Command}
    (splits : commands? content = some commands) :
    (∀ word ∈ commands.flatten, word.span.start < word.span.stop ∧
      word.span.stop ≤ content.length ∧
      word.text = unquote .outside (word.span.text content)) ∧
    commands.flatten.Pairwise (fun earlier later => earlier.span.start < later.span.start ∧
      earlier.span.stop ≤ later.span.start) ∧
    ∀ command ∈ commands, ∃ first rest, command = first :: rest ∧ first.text ∉ reservedWords := by
  obtain ⟨inText, apart⟩ := words_of_commands? content commands splits
  refine ⟨fun word member => ?_, ?_, fun command member => ?_⟩
  · have wordIn := inText word member
    exact ⟨wordIn.proper, wordIn.inside, (endsIn_of_commands? splits member).text_eq wordIn.inside⟩
  · refine apart.imp_of_mem fun isEarlier _ before => ⟨?_, before⟩
    exact Nat.lt_of_lt_of_le (inText _ isEarlier).proper before
  · obtain ⟨first, rest, rfl, notReserved⟩ := begins_of_commands? splits command member
    refine ⟨first, rest, rfl, fun isReserved => ?_⟩
    rw [Word.isReserved, List.contains_iff_mem.mpr isReserved] at notReserved
    cases notReserved

/-- A word of parts in either quotes and of none, and a word that ends with the text. -/
def gluedParts : Text := "do a\x27b c\x27\"\\$d\\e\\\nf\"\\ g # it\x27s\n! x\\\ny>&1 \\"

theorem unquoted_of_commands?_gluedParts :
    ∃ commands, commands? gluedParts = some commands ∧
      commands.map (fun command => command.map Word.text) =
        [[Text.ofString "ab c$d\\ef g"], [Text.ofString "xy>&1", Text.ofString "\\"]] ∧
      (∀ word ∈ commands.flatten, word.text = unquote .outside (word.span.text gluedParts)) ∧
      commands.flatten.Pairwise (fun earlier later => earlier.span.start < later.span.start ∧
        earlier.span.stop ≤ later.span.start) := by
  have splits : commands? gluedParts = some [[⟨"ab c$d\\ef g", ⟨3, 22⟩⟩],
      [⟨"xy>&1", ⟨32, 39⟩⟩, ⟨"\\", ⟨40, 41⟩⟩]] := by decide +kernel
  obtain ⟨words, apart, _⟩ := unquoted_of_commands? splits
  exact ⟨_, splits, rfl, fun word member => (words word member).2.2, apart⟩

end SourceLint.Shell
