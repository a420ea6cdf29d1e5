/-
This file proves that the fix of a shell script answers the questions of conda and does nothing
else. The answers are put in from the last to the first, and each of them gives its command one word
more and moves what stands behind it. So every word of the new script is a word of the old one,
moved by the answers before it, or an answer; and with its answer no command asks any more.
-/
import Mathlib.Data.List.Lattice
import Mathlib.Data.List.Pairwise
import SourceLint.Proofs.Check.CondaYes
import SourceLint.Proofs.Shell.Insertion

namespace SourceLint.CondaYes

open Shell (Word Command Rewriting)

/-! ### Commands that ask -/

/-- A command that asks: `conda`, flags that do not end it, and a subcommand that asks. -/
theorem exists_of_unanswered? {command : Command} {subcommand : Word}
    (asks : unanswered? command = some subcommand) :
    ∃ program flags rest, command = program :: flags ++ subcommand :: rest ∧
      (∀ word ∈ flags, leadingFlags.contains word.text = true) ∧
      subcommand.text ∈ interactiveSubcommands := by
  cases command with
  | nil => cases asks
  | cons program arguments =>
    rw [unanswered?] at asks
    split at asks
    · dsimp only at asks
      split at asks
      · cases asks
      case h_2 found rest isFound =>
        split at asks
        case isTrue interactive =>
          cases asks
          rw [Bool.and_eq_true, Bool.and_eq_true, List.contains_iff_mem] at interactive
          refine ⟨program, arguments.takeWhile fun word => leadingFlags.contains word.text, rest,
            ?_, List.all_eq_true.mp List.all_takeWhile, interactive.1.1⟩
          rw [List.cons_append, ← isFound, List.takeWhile_append_dropWhile]
        case isFalse => cases asks
    · cases asks

/-- Behind its subcommand the answer is found. -/
theorem unanswered?_of_answered {program subcommand answer : Word} {flags rest : List Word}
    (leading : ∀ word ∈ flags, leadingFlags.contains word.text = true)
    (interactive : subcommand.text ∈ interactiveSubcommands) (answers : answer.text = Text.ofString "-y") :
    unanswered? (program :: flags ++ subcommand :: answer :: rest) = none := by
  have notLeading : ∀ text ∈ interactiveSubcommands, leadingFlags.contains text = false := by decide
  have isAnswer : yesArguments.contains answer.text = true := by
    rw [answers]
    decide
  have isFirst : (flags ++ subcommand :: answer :: rest).dropWhile
      (fun word => leadingFlags.contains word.text) = subcommand :: answer :: rest := by
    rw [List.dropWhile_append_of_pos leading, List.dropWhile_cons_of_neg]
    rw [notLeading _ interactive]
    decide
  rw [List.cons_append, unanswered?]
  dsimp only
  rw [isFirst]
  split
  · dsimp only
    rw [List.any_cons, isAnswer, Bool.true_or, Bool.not_true, Bool.and_false,
      if_neg Bool.false_ne_true]
  · rfl

/-- Whether a command asks depends on the texts of its words only. -/
theorem unanswered?_map (moved : Word → Word) (same : ∀ word, (moved word).text = word.text)
    (command : Command) : unanswered? (command.map moved) = (unanswered? command).map moved := by
  cases command with
  | nil => rfl
  | cons program arguments =>
    have sameTexts (texts : List Text) :
        (fun word => texts.contains word.text) ∘ moved = fun word => texts.contains word.text :=
      funext fun word => congrArg _ (same word)
    rw [List.map_cons, unanswered?, unanswered?, same]
    dsimp only
    rw [List.dropWhile_map, List.takeWhile_map, List.any_map, sameTexts, sameTexts]
    split
    · cases arguments.dropWhile fun word => leadingFlags.contains word.text with
      | nil => rfl
      | cons subcommand rest =>
        rw [List.map_cons]
        dsimp only
        rw [List.any_map, sameTexts, same]
        split <;> rfl
    · rfl

/-! ### The words of the new script -/

/-- The argument that answers the questions. -/
def answer : Text := "-y"

/-- How many of the words stop before another one does. -/
def answersBefore (asking : List Word) (word : Word) : Nat :=
  asking.countP fun other => other.span.stop < word.span.stop

/-- What stands in the new script for a word of the old one: the word, moved by the answers before
it, and an answer if the word is a subcommand that asks. -/
def answeredWords (asking : List Word) (word : Word) : List Word :=
  let moved := word.shift (3 * answersBefore asking word)
  if word ∈ asking then [moved, moved.behind answer] else [moved]

theorem answersBefore_eq_zero {asking : List Word} {word : Word}
    (beyond : ∀ other ∈ asking, word.span.stop ≤ other.span.stop) :
    answersBefore asking word = 0 := by
  rw [answersBefore, List.countP_eq_zero]
  intro other member
  rw [decide_eq_true_eq]
  exact Nat.not_lt_of_le (beyond other member)

theorem answersBefore_cons_of_lt {first word : Word} (before : first.span.stop < word.span.stop)
    (others : List Word) :
    answersBefore (first :: others) word = answersBefore others word + 1 :=
  List.countP_cons_of_pos (decide_eq_true before)

/-- Up to a subcommand that asks, the answers behind it change nothing. -/
theorem answeredWords_of_lt {asking : List Word} {word : Word}
    (beyond : ∀ other ∈ asking, word.span.stop < other.span.stop) :
    answeredWords asking word = [word] := by
  have notAsking : word ∉ asking := fun member => Nat.lt_irrefl _ (beyond word member)
  rw [answeredWords, answersBefore_eq_zero fun other member => Nat.le_of_lt (beyond other member),
    if_neg notAsking]
  rfl

/-- One more answer, before the others. -/
theorem answeredWords_cons {first : Word} {others : List Word}
    (beyond : ∀ other ∈ others, first.span.stop < other.span.stop)
    (notReserved : first.isReserved = false) (word : Word) :
    (answeredWords others word).flatMap (Rewriting.inserting first answer notReserved).words =
      answeredWords (first :: others) word := by
  by_cases before : word.span.stop ≤ first.span.stop
  · have later (other : Word) (member : other ∈ others) : word.span.stop < other.span.stop :=
      Nat.lt_of_le_of_lt before (beyond other member)
    have noneBefore : answersBefore (first :: others) word = 0 :=
      answersBefore_eq_zero (List.forall_mem_cons.mpr
        ⟨before, fun other member => Nat.le_of_lt (later other member)⟩)
    rw [answeredWords_of_lt later, List.flatMap_singleton, answeredWords, noneBefore]
    by_cases isFirst : word = first
    · subst isFirst
      rw [Rewriting.words_inserting_self, if_pos List.mem_cons_self]
      rfl
    · have notAsking : word ∉ first :: others :=
        List.not_mem_cons_of_ne_of_not_mem isFirst fun member => Nat.lt_irrefl _ (later word member)
      rw [Rewriting.words_inserting_of_le isFirst before, if_neg notAsking]
      rfl
  · have behind : first.span.stop < word.span.stop := Nat.lt_of_not_le before
    have isOther : word ≠ first := by
      rintro rfl
      exact before (Nat.le_refl _)
    have moves (other : Word) (after : word.span.stop ≤ other.span.stop) :
        (Rewriting.inserting first answer notReserved).words other = [other.shift 3] :=
      Rewriting.words_inserting_of_lt (Nat.lt_of_lt_of_le behind after)
    have unmoved (distance : Nat) : word.span.stop ≤ (word.shift distance).span.stop :=
      Nat.le_add_right _ _
    rw [answeredWords, answeredWords, answersBefore_cons_of_lt behind, Nat.mul_add,
      ← Word.shift_shift]
    by_cases isAsking : word ∈ others
    · rw [if_pos isAsking, if_pos (List.mem_cons_of_mem _ isAsking), List.flatMap_cons,
        List.flatMap_singleton, moves _ (unmoved _), moves, Word.shift_behind]
      · rfl
      · have unmoved := unmoved (3 * answersBefore others word)
        dsimp only [Word.behind]
        omega
    · have notAsking : word ∉ first :: others := List.not_mem_cons_of_ne_of_not_mem isOther isAsking
      rw [if_neg isAsking, if_neg notAsking, List.flatMap_singleton, moves _ (unmoved _)]

theorem isReserved_of_interactive {word : Word} (interactive : word.text ∈ interactiveSubcommands) :
    word.isReserved = false := by
  have notReserved : ∀ text ∈ interactiveSubcommands,
      Shell.reservedWords.contains text = false := by decide
  exact notReserved _ interactive

theorem isOrdinary_of_interactive {word : Word}
    (interactive : word.text ∈ interactiveSubcommands) :
    ∀ unit ∈ word.text, Shell.Splitter.isOrdinary unit = true := by
  have ordinary : ∀ text ∈ interactiveSubcommands,
      text.all Shell.Splitter.isOrdinary = true := by decide
  exact List.all_eq_true.mp (ordinary _ interactive)

/-- The words of a script stop one after another. -/
theorem stops_of_commands? {content : Text} {commands : List Command}
    (splits : Shell.commands? content = some commands) :
    commands.flatten.Pairwise fun earlier later => earlier.span.stop < later.span.stop := by
  obtain ⟨inText, ordered⟩ := Shell.words_of_commands? content commands splits
  exact ordered.imp_of_mem fun _ isLater before =>
    Nat.lt_of_le_of_lt before (inText _ isLater).proper

/-- The commands of a script with answers behind some of its subcommands. The answers are put in from
the last to the first. -/
theorem commands?_answered {content : Text} {commands : List Command}
    (splits : Shell.commands? content = some commands) (asking : List Word)
    (among : ∀ word ∈ asking, word ∈ commands.flatten)
    (ordered : asking.Pairwise fun earlier later => earlier.span.stop < later.span.stop)
    (interactive : ∀ word ∈ asking, word.text ∈ interactiveSubcommands) :
    Shell.commands? (asking.foldr (fun word => word.followedBy answer) content) =
      some (commands.map fun command => command.flatMap (answeredWords asking)) := by
  induction asking with
  | nil =>
    have stays (word : Word) : answeredWords [] word = [word] :=
      answeredWords_of_lt fun _ member => absurd member List.not_mem_nil
    have same : (answeredWords []) = fun word => [word] := funext stays
    rw [List.foldr_nil, splits, same]
    simp
  | cons first others inductionHypothesis =>
    obtain ⟨firstAmong, othersAmong⟩ := List.forall_mem_cons.mp among
    obtain ⟨beyond, othersOrdered⟩ := List.pairwise_cons.mp ordered
    obtain ⟨firstInteractive, othersInteractive⟩ := List.forall_mem_cons.mp interactive
    have notReserved := isReserved_of_interactive firstInteractive
    have later := inductionHypothesis othersAmong othersOrdered othersInteractive
    have stillThere : first ∈
        (commands.map fun command => command.flatMap (answeredWords others)).flatten := by
      obtain ⟨command, isCommand, inCommand⟩ := List.mem_flatten.mp firstAmong
      refine List.mem_flatten.mpr ⟨_, List.mem_map_of_mem isCommand,
        List.mem_flatMap.mpr ⟨first, inCommand, ?_⟩⟩
      rw [answeredWords_of_lt beyond]
      exact List.mem_cons_self
    rw [List.foldr_cons, Shell.commands?_followedBy later stillThere
      (isOrdinary_of_interactive firstInteractive) notReserved (by decide)
      (List.all_eq_true.mp (by decide)), List.map_map]
    refine congrArg some (List.map_congr_left fun command _ => ?_)
    rw [Function.comp_apply, Command.rewrite, List.flatMap_assoc]
    exact List.flatMap_congr fun word _ => answeredWords_cons beyond notReserved word

/-! ### The commands of the new script -/

/-- What becomes of a command: it stays, word for word, or it has the answer directly behind its
subcommand. -/
inductive Answered (command answered : Command) : Prop
  | silent (asks : unanswered? command = none)
      (texts : answered.map Word.text = command.map Word.text)
  | asking (before : List Word) (subcommand : Word) (after : List Word)
      (asks : unanswered? command = some subcommand)
      (whole : command = before ++ subcommand :: after)
      (texts : answered.map Word.text =
        before.map Word.text ++ subcommand.text :: answer :: after.map Word.text)

/-- The subcommands that ask are words of the script, in their order. -/
theorem asking_sublist (commands : List Command) :
    (commands.filterMap unanswered?).Sublist commands.flatten := by
  induction commands with
  | nil => exact List.Sublist.slnil
  | cons command others inductionHypothesis =>
    rw [List.filterMap_cons, List.flatten_cons]
    cases asks : unanswered? command with
    | none => exact inductionHypothesis.trans (List.sublist_append_right _ _)
    | some subcommand =>
      obtain ⟨program, flags, rest, whole, _⟩ := exists_of_unanswered? asks
      have member : subcommand ∈ command := by
        rw [whole]
        exact List.mem_append_right _ List.mem_cons_self
      exact (List.singleton_sublist.mpr member).append inductionHypothesis

/-- A word of a command is a subcommand that asks only if that command asks. -/
theorem asks_of_mem {commands : List Command} (nodup : commands.flatten.Nodup) {command : Command}
    (isCommand : command ∈ commands) {word : Word} (inCommand : word ∈ command)
    (isAsking : word ∈ commands.filterMap unanswered?) : unanswered? command = some word := by
  obtain ⟨other, isOther, asks⟩ := List.mem_filterMap.mp isAsking
  obtain ⟨program, flags, rest, whole, _⟩ := exists_of_unanswered? asks
  have inOther : word ∈ other := by
    rw [whole]
    exact List.mem_append_right _ List.mem_cons_self
  have same : command = other := by
    have symmetric : Std.Symm (List.Disjoint (α := Word)) := ⟨fun _ _ => List.Disjoint.symm⟩
    by_contra apart
    exact (List.nodup_flatten.mp nodup).2.forall isCommand isOther apart inCommand inOther
  rw [same, asks]

/-- A word of the old script in its new place. -/
def moved (asking : List Word) (word : Word) : Word := word.shift (3 * answersBefore asking word)

theorem text_moved (asking : List Word) (word : Word) : (moved asking word).text = word.text := rfl

theorem texts_moved (asking words : List Word) :
    (words.map (moved asking)).map Word.text = words.map Word.text :=
  List.map_map

/-- Words none of which asks are moved. -/
theorem flatMap_answeredWords {asking words : List Word} (silent : ∀ word ∈ words, word ∉ asking) :
    words.flatMap (answeredWords asking) = words.map (moved asking) := by
  rw [← List.flatMap_pure_eq_map]
  exact List.flatMap_congr fun word member => if_neg (silent word member)

/-- A command of the new script is answered and asks no more. -/
theorem answered_of_command {commands : List Command} (nodup : commands.flatten.Nodup)
    {command : Command} (isCommand : command ∈ commands) :
    Answered command (command.flatMap (answeredWords (commands.filterMap unanswered?))) ∧
      unanswered? (command.flatMap (answeredWords (commands.filterMap unanswered?))) = none := by
  cases isAsked : unanswered? command with
  | none =>
    have silent (word : Word) (member : word ∈ command) :
        word ∉ commands.filterMap unanswered? := fun isAsking =>
      absurd (isAsked.symm.trans (asks_of_mem nodup isCommand member isAsking)) (by simp)
    rw [flatMap_answeredWords silent]
    refine ⟨.silent isAsked (texts_moved _ command), ?_⟩
    rw [unanswered?_map _ (text_moved _), isAsked]
    rfl
  | some subcommand =>
    obtain ⟨program, flags, rest, whole, leading, interactive⟩ := exists_of_unanswered? isAsked
    have isAsking : subcommand ∈ commands.filterMap unanswered? :=
      List.mem_filterMap.mpr ⟨command, isCommand, isAsked⟩
    have silent (word : Word) (member : word ∈ command) (other : word ≠ subcommand) :
        word ∉ commands.filterMap unanswered? := fun isAsking =>
      other (Option.some.inj ((asks_of_mem nodup isCommand member isAsking).symm.trans isAsked))
    have own := (List.nodup_flatten.mp nodup).1 command isCommand
    rw [whole] at own silent
    -- The subcommand stands in its command once, so nothing else in it is answered.
    have once : subcommand ∉ program :: flags ++ rest :=
      (List.nodup_cons.mp (List.nodup_middle.mp own)).1
    have silentBefore (word : Word) (member : word ∈ program :: flags) :=
      silent word (List.mem_append_left _ member) fun same =>
        once (same ▸ List.mem_append_left _ member)
    have silentAfter (word : Word) (member : word ∈ rest) :=
      silent word (List.mem_append_right _ (List.mem_cons_of_mem _ member)) fun same =>
        once (same ▸ List.mem_append_right _ member)
    have moves : command.flatMap (answeredWords (commands.filterMap unanswered?)) =
        (program :: flags).map (moved (commands.filterMap unanswered?)) ++
          moved (commands.filterMap unanswered?) subcommand ::
            (moved (commands.filterMap unanswered?) subcommand).behind answer ::
              rest.map (moved (commands.filterMap unanswered?)) := by
      rw [whole, List.flatMap_append, flatMap_answeredWords silentBefore, List.flatMap_cons,
        flatMap_answeredWords silentAfter, answeredWords, if_pos isAsking]
      rfl
    rw [moves]
    refine ⟨.asking (program :: flags) subcommand rest isAsked whole ?_, ?_⟩
    · simp only [List.map_append, List.map_cons, texts_moved]
      rfl
    · refine unanswered?_of_answered (fun word member => ?_) interactive rfl
      obtain ⟨flag, isFlag, rfl⟩ := List.mem_map.mp member
      exact leading flag isFlag

/-! ### The fix -/

/-- The warnings on a script put an answer behind each subcommand that asks. -/
theorem replacements_of_commands (commands : List Command) :
    (commands.filterMap commandWarning?).flatMap Warning.replacements =
      (commands.filterMap unanswered?).map fun subcommand =>
        ⟨.point subcommand.span.stop, 0x20 :: answer⟩ := by
  induction commands with
  | nil => rfl
  | cons command others inductionHypothesis =>
    cases asks : unanswered? command with
    | none =>
      have noWarning : commandWarning? command = none := by rw [commandWarning?, asks]; rfl
      rw [List.filterMap_cons_none noWarning, List.filterMap_cons_none asks, inductionHypothesis]
    | some subcommand =>
      obtain ⟨program, flags, rest, whole, _⟩ := exists_of_unanswered? asks
      have warns : commandWarning? command = some ⟨⟨program.span.start, subcommand.span.stop⟩,
          "add -y argument", [⟨.point subcommand.span.stop, " -y"⟩], []⟩ := by
        rw [commandWarning?, asks, whole]
        rfl
      have withBlank : (" -y" : Text) = 0x20 :: answer := by decide
      rw [List.filterMap_cons_some warns, List.filterMap_cons_some asks, List.flatMap_cons,
        List.map_cons, inductionHypothesis, withBlank]
      rfl

/-- Answers behind words that stop one after another are in a row. -/
theorem row_of_stops {length : Nat} {asking : List Word}
    (ordered : asking.Pairwise fun earlier later => earlier.span.stop < later.span.stop)
    (inside : ∀ word ∈ asking, word.span.stop ≤ length) :
    Span.Row 0 length 0 (asking.map fun word => Span.point word.span.stop) ∧
      (asking.map fun word => Span.point word.span.stop).Nodup := by
  refine ⟨Span.row_of_pairwise 0 _ (Nat.zero_le _) (List.pairwise_map.mpr ?_) fun span member => ?_,
    List.pairwise_map.mpr (ordered.imp fun before same => ?_)⟩
  · exact ordered.imp fun before => Nat.le_of_lt before
  · obtain ⟨word, isWord, rfl⟩ := List.mem_map.mp member
    exact ⟨Nat.zero_le _, Nat.le_refl _, inside word isWord⟩
  · exact Nat.ne_of_lt before (congrArg Span.start same)

/-- All replacements of the warnings on a script together give each command that asks its answer,
directly behind its subcommand, and leave every other word as it is. The new script is without a
warning. -/
theorem check_answered (source : Source) {commands : List Command}
    (splits : Shell.commands? source.content = some commands) :
    ∃ warnings fixed answered, check source = .ok warnings ∧
      fixed = (warnings.flatMap Warning.replacements).foldr Replacement.putInto source.content ∧
      ((∀ warning ∈ warnings, source.isEnabled warning = true) →
        (⟨source, warnings⟩ : Linter).fix = .ok fixed) ∧
      Shell.commands? fixed = some answered ∧ List.Forall₂ Answered commands answered ∧
      ∀ other : Source, other.content = fixed → check other = .ok [] := by
  have stops := stops_of_commands? splits
  have among := asking_sublist commands
  have nodup : commands.flatten.Nodup := stops.imp fun before same => by
    rw [same] at before
    exact Nat.lt_irrefl _ before
  have interactive (word : Word) (member : word ∈ commands.filterMap unanswered?) :
      word.text ∈ interactiveSubcommands := by
    obtain ⟨command, _, asks⟩ := List.mem_filterMap.mp member
    obtain ⟨_, _, _, _, _, interactive⟩ := exists_of_unanswered? asks
    exact interactive
  have splitsFixed := commands?_answered splits (commands.filterMap unanswered?) among.subset
    (stops.sublist among) interactive
  have answered (command : Command) (isCommand : command ∈ commands) :=
    answered_of_command nodup isCommand
  obtain ⟨row, distinct⟩ := row_of_stops (stops.sublist among) fun word member =>
    ((Shell.words_of_commands? _ _ splits).1 word (among.subset member)).inside
  have replacements := replacements_of_commands commands
  generalize commands.filterMap unanswered? = asking at splitsFixed answered row distinct replacements
  have spans : ((commands.filterMap commandWarning?).flatMap Warning.replacements).map
      Replacement.span = asking.map fun word => Span.point word.span.stop := by
    rw [replacements, List.map_map]
    rfl
  rw [← spans] at row distinct
  have together : ((commands.filterMap commandWarning?).flatMap Warning.replacements).foldr
      Replacement.putInto source.content =
        asking.foldr (fun word => word.followedBy answer) source.content := by
    rw [replacements, List.foldr_map]
    rfl
  refine ⟨commands.filterMap commandWarning?, _, commands.map _, ?_, rfl, fun enabled => ?_,
    together ▸ splitsFixed, ?_, fun other same => ?_⟩
  · rw [check, splits]
  · rw [Replacement.foldr_putInto _ 0 _ row, List.take_zero, List.nil_append]
    exact Linter.fix_eq_splice source _ enabled _ (List.Perm.refl _) row distinct
  · rw [List.forall₂_map_right_iff, List.forall₂_same]
    exact fun command isCommand => (answered command isCommand).1
  · rw [check, same, together, splitsFixed]
    refine congrArg Except.ok (List.filterMap_eq_nil_iff.mpr fun command member => ?_)
    obtain ⟨old, isOld, rfl⟩ := List.mem_map.mp member
    rw [commandWarning?, (answered old isOld).2]
    rfl

/-- A script with two commands that ask, where the next command follows directly. -/
def piped : Source := .ofText "setup.sh" "conda clean|conda --no-plugins update x" checkName

theorem check_answered_piped :
    ∃ answered, Shell.commands? "conda clean -y|conda --no-plugins update -y x" = some answered ∧
      List.Forall₂ Answered
        [[⟨"conda", ⟨0, 5⟩⟩, ⟨"clean", ⟨6, 11⟩⟩],
          [⟨"conda", ⟨12, 17⟩⟩, ⟨"--no-plugins", ⟨18, 30⟩⟩, ⟨"update", ⟨31, 37⟩⟩,
            ⟨"x", ⟨38, 39⟩⟩]] answered ∧
      ∀ other : Source, other.content = "conda clean -y|conda --no-plugins update -y x" →
        check other = .ok [] := by
  have before : Shell.commands? piped.content = some [[⟨"conda", ⟨0, 5⟩⟩, ⟨"clean", ⟨6, 11⟩⟩],
      [⟨"conda", ⟨12, 17⟩⟩, ⟨"--no-plugins", ⟨18, 30⟩⟩, ⟨"update", ⟨31, 37⟩⟩,
        ⟨"x", ⟨38, 39⟩⟩]] := by decide +kernel
  obtain ⟨warnings, fixed, answered, checks, whole, _, splits, same, silent⟩ :=
    check_answered piped before
  have found : check piped = .ok [⟨⟨0, 11⟩, "add -y argument", [⟨⟨11, 11⟩, " -y"⟩], []⟩,
      ⟨⟨12, 37⟩, "add -y argument", [⟨⟨37, 37⟩, " -y"⟩], []⟩] := by decide +kernel
  have isFixed : fixed = "conda clean -y|conda --no-plugins update -y x" := by
    cases checks.symm.trans found
    rw [whole]
    decide +kernel
  rw [isFixed] at splits silent
  exact ⟨answered, splits, same, silent⟩

end SourceLint.CondaYes
