/-
This file compares the machine that splits a shell text with a plain splitting, for texts in which
nothing is quoted, commented out or redirected: the text is cut at the signs between commands, each
part is cut at its white space, and the words that introduce a command are left out. The machine
puts off a word and a command until a unit ends them, so between two units it stands for the part
that is open, of which it has some words and the beginning of one more.
-/
import SourceLint.Proofs.Shell.Remainder
import SourceLint.Proofs.Shell.Unquoting

namespace SourceLint.Shell

/-! ### Plain splitting -/

/-- The units between which a text is cut into commands. -/
def separatesCommands (unit : CodeUnit) : Bool := ("\n;&|()" : Text).contains unit

/-- The word that units make up which follow one another, each with its place. -/
def Word.ofRun? : List (CodeUnit × Nat) → Option Word
  | [] => none
  | (unit, start) :: rest =>
    some ⟨unit :: rest.map Prod.fst, ⟨start, start + (rest.length + 1)⟩⟩

/-- The runs of units between the white space. -/
def wordsBetween (units : List (CodeUnit × Nat)) : List Word :=
  (units.splitOnP fun unit => unit.1.isBlank).filterMap Word.ofRun?

/-- The parts between the signs that separate commands, as far as something is left of them without
the words that introduce a command. -/
def commandsBetween (units : List (CodeUnit × Nat)) : List Command :=
  ((units.splitOnP fun unit => separatesCommands unit.1).map fun part =>
    Command.dropReserved (wordsBetween part)).filter fun command => !command.isEmpty

/-- The commands of a text by plain splitting. -/
def plainCommands (content : Text) : List Command := commandsBetween content.zipIdx

/-! ### The parts of a plain splitting -/

section Parts

variable {units run : List (CodeUnit × Nat)} {unit : CodeUnit} {position : Nat}

/-- The word to which a further unit belongs, or that begins with it. -/
def Word.goingOn (unit : CodeUnit) (position : Nat) : Option Word → Word
  | none => ⟨[unit], ⟨position, position + 1⟩⟩
  | some word => ⟨word.text ++ [unit], ⟨word.span.start, word.span.stop + 1⟩⟩

theorem Word.ofRun?_concat :
    Word.ofRun? (run ++ [(unit, position)]) =
      some (Word.goingOn unit position (Word.ofRun? run)) := by
  cases run with
  | nil => rfl
  | cons first run => simp [ofRun?, goingOn, Nat.add_assoc]

theorem wordsBetween_run (notBlank : ∀ unit ∈ run, unit.1.isBlank = false) :
    wordsBetween run = (Word.ofRun? run).toList := by
  rw [wordsBetween, List.splitOnP_eq_singleton notBlank, List.filterMap_cons]
  cases Word.ofRun? run <;> rfl

/-- White space stands between words. -/
theorem wordsBetween_append_blank (left right : List (CodeUnit × Nat))
    (isBlank : unit.isBlank = true) :
    wordsBetween (left ++ (unit, position) :: right) = wordsBetween left ++ wordsBetween right := by
  rw [wordsBetween, List.splitOnP_append_cons left right (by exact isBlank), List.filterMap_append]
  rfl

theorem commandsBetween_part (together : ∀ unit ∈ units, separatesCommands unit.1 = false) :
    commandsBetween units =
      [Command.dropReserved (wordsBetween units)].filter fun command => !command.isEmpty := by
  rw [commandsBetween, List.splitOnP_eq_singleton together, List.map_singleton]

/-- A sign that separates commands stands between commands. -/
theorem commandsBetween_append_sign (left right : List (CodeUnit × Nat))
    (separates : separatesCommands unit = true) :
    commandsBetween (left ++ (unit, position) :: right) =
      commandsBetween left ++ commandsBetween right := by
  rw [commandsBetween, List.splitOnP_append_cons left right (by exact separates), List.map_append,
    List.filter_append]
  rfl

end Parts

namespace Splitter

variable {splitter : Splitter} {position : Nat} {unit : CodeUnit} {rest : Text}
  {units : List (CodeUnit × Nat)}

/-! ### The open part -/

/-- A unit that goes to the open word, or begins one, changes no word that has ended. -/
theorem words_openWord_append (splitter : Splitter) (position : Nat) (unit : CodeUnit) :
    ((splitter.openWord position).append [unit]).words = splitter.words := by
  rw [openWord]
  cases splitter.word <;> rfl

/-- The open word, if it ended at a position. -/
def wordTo? (splitter : Splitter) (position : Nat) : Option Word :=
  splitter.word.map fun word => ⟨word.text, ⟨word.start, position⟩⟩

theorem wordTo?_append :
    ((splitter.openWord position).append [unit]).wordTo? (position + 1) =
      some (Word.goingOn unit position (splitter.wordTo? position)) := by
  rw [openWord, wordTo?, wordTo?]
  cases isWord : splitter.word <;> simp [append, isWord, Word.goingOn]

theorem words_closeWord_eq :
    (splitter.closeWord position).words =
      (splitter.wordTo? position).toList ++ splitter.words := by
  rw [closeWord, wordTo?]
  cases splitter.word <;> rfl

theorem commands_closeCommand :
    (splitter.closeCommand position).commands.reverse = splitter.commands.reverse ++
      [Command.dropReserved (splitter.closeWord position).words.reverse].filter
        fun command => !command.isEmpty := by
  rw [closeCommand]
  cases Command.dropReserved (splitter.closeWord position).words.reverse with
  | nil => simp [commands_closeWord]
  | cons word words => simp [commands_closeWord]

/-- The machine has read a part of a text up to a position, of which it has the words that have
ended; the open word is the run of units behind them. -/
structure HasRead (splitter : Splitter) (units : List (CodeUnit × Nat)) (position : Nat) :
    Prop where
  settled : splitter.Settled
  noArrow : splitter.previous ≠ some ('<' : CodeUnit) ∧ splitter.previous ≠ some ('>' : CodeUnit)
  together : ∀ unit ∈ units, separatesCommands unit.1 = false
  words : ∃ run : List (CodeUnit × Nat), (∀ unit ∈ run, unit.1.isBlank = false) ∧
    splitter.wordTo? position = Word.ofRun? run ∧
    ∀ more, wordsBetween (units ++ more) = splitter.words.reverse ++ wordsBetween (run ++ more)

/-- At its end a part has the words that the machine has with the open one. -/
theorem HasRead.words_closeWord (hasRead : splitter.HasRead units position) :
    (splitter.closeWord position).words.reverse = wordsBetween units := by
  obtain ⟨run, notBlank, isRun, words⟩ := hasRead.words
  have all := words []
  rw [List.append_nil, List.append_nil, wordsBetween_run notBlank, ← isRun] at all
  rw [words_closeWord_eq, all, List.reverse_append]
  cases splitter.wordTo? position <;> rfl

/-- The end of a part is the end of its command. -/
theorem HasRead.commands_closeCommand (hasRead : splitter.HasRead units position) :
    (splitter.closeCommand position).commands.reverse =
      splitter.commands.reverse ++ commandsBetween units := by
  rw [Splitter.commands_closeCommand, hasRead.words_closeWord,
    commandsBetween_part hasRead.together]

theorem hasRead_nil (position : Nat) (settled : splitter.Settled)
    (noArrow : splitter.previous ≠ some ('<' : CodeUnit) ∧
      splitter.previous ≠ some ('>' : CodeUnit))
    (noWord : splitter.word = none) (noWords : splitter.words = []) :
    splitter.HasRead [] position where
  settled := settled
  noArrow := noArrow
  together := List.forall_mem_nil _
  words := by
    refine ⟨[], List.forall_mem_nil _, ?_, fun more => ?_⟩
    · rw [wordTo?, noWord]
      rfl
    · rw [noWords]
      rfl

/-! ### One unit -/

theorem some_ne_arrow (quiet : unit ∉ opening) (notRight : unit ≠ '>') :
    some unit ≠ some ('<' : CodeUnit) ∧ some unit ≠ some ('>' : CodeUnit) := by
  refine ⟨mt Option.some.inj ?_, mt Option.some.inj notRight⟩
  rintro rfl
  exact quiet (by decide)

theorem separatesCommands_eq : separatesCommands unit = (unit == 0x0A || isOperator unit) := rfl

theorem readPlain_of_settled (settled : splitter.Settled) (quiet : unit ∉ opening)
    (apart : isRedirection splitter.previous rest = false) :
    splitter.readPlain position unit rest =
      if separatesCommands unit then splitter.closeCommand position
      else if unit.isBlank then splitter.closeWord position
      else (splitter.openWord position).append [unit] := by
  rw [readPlain_of_quiet quiet, apart, Bool.and_false, if_neg Bool.false_ne_true,
    separatesCommands_eq]
  by_cases isFeed : unit = 0x0A
  · have stays : (splitter.closeCommand position).mode = .plain :=
      mode_closeCommand.trans settled.plain
    rw [if_pos isFeed, beq_iff_eq.mpr isFeed, Bool.true_or, if_pos rfl,
      endLine_of_pending settled.pending, ← stays]
  · rw [if_neg isFeed, beq_eq_false_iff_ne.mpr isFeed, Bool.false_or]

/-- No unit is an arrow or begins anything. -/
theorem HasRead.step_eq (hasRead : splitter.HasRead units position) (quiet : unit ∉ opening)
    (noArrow : rest.head? ≠ some ('>' : CodeUnit)) :
    splitter.step position unit rest =
      { (if separatesCommands unit then splitter.closeCommand position
          else if unit.isBlank then splitter.closeWord position
          else (splitter.openWord position).append [unit]) with previous := some unit } := by
  have apart : isRedirection splitter.previous rest = false := by
    simp [isRedirection, hasRead.noArrow, noArrow]
  rw [step_of_plain hasRead.settled.plain, readPlain_of_settled hasRead.settled quiet apart]

/-- A unit that does not separate commands belongs to the part. -/
theorem HasRead.step (hasRead : splitter.HasRead units position) (quiet : unit ∉ opening)
    (notRight : unit ≠ '>') (noArrow : rest.head? ≠ some ('>' : CodeUnit))
    (joins : separatesCommands unit = false) :
    (splitter.step position unit rest).HasRead (units ++ [(unit, position)]) (position + 1) := by
  have together : ∀ other ∈ units ++ [(unit, position)], separatesCommands other.1 = false :=
    List.forall_mem_append.mpr ⟨hasRead.together, List.forall_mem_singleton.mpr joins⟩
  refine ⟨hasRead.settled.step quiet, some_ne_arrow quiet notRight, together, ?_⟩
  rw [hasRead.step_eq quiet noArrow, joins, if_neg Bool.false_ne_true]
  cases isBlank : unit.isBlank with
  | true =>
    rw [if_pos rfl]
    refine ⟨[], List.forall_mem_nil _, ?_, fun more => ?_⟩
    · exact congrArg (Option.map _) word_closeWord
    · rw [List.append_assoc, List.singleton_append, wordsBetween_append_blank units more isBlank,
        ← hasRead.words_closeWord]
      rfl
  | false =>
    obtain ⟨run, notBlank, isRun, words⟩ := hasRead.words
    rw [if_neg Bool.false_ne_true]
    refine ⟨run ++ [(unit, position)], ?_, ?_, fun more => ?_⟩
    · exact List.forall_mem_append.mpr ⟨notBlank, List.forall_mem_singleton.mpr isBlank⟩
    · rw [Word.ofRun?_concat, ← isRun]
      exact wordTo?_append
    · rw [List.append_assoc, List.append_assoc, words]
      exact congrArg (List.reverse · ++ _) (words_openWord_append splitter position unit).symm

/-- Behind a sign that separates commands the next part begins. -/
theorem HasRead.step_sign (hasRead : splitter.HasRead units position) (quiet : unit ∉ opening)
    (notRight : unit ≠ '>') (noArrow : rest.head? ≠ some ('>' : CodeUnit))
    (separates : separatesCommands unit = true) :
    (splitter.step position unit rest).HasRead [] (position + 1) ∧
      (splitter.step position unit rest).commands.reverse =
        splitter.commands.reverse ++ commandsBetween units := by
  have settled : (splitter.step position unit rest).Settled := hasRead.settled.step quiet
  have ends := hasRead.step_eq quiet noArrow
  rw [separates, if_pos rfl] at ends
  rw [ends] at settled ⊢
  exact ⟨hasRead_nil _ settled (some_ne_arrow quiet notRight)
    word_closeCommand words_closeCommand_eq_nil, hasRead.commands_closeCommand⟩

/-! ### The whole text -/

theorem HasRead.commandsFrom? (hasRead : splitter.HasRead units position)
    (quiet : ∀ unit ∈ rest, unit ∉ opening) (noArrow : ('>' : CodeUnit) ∉ rest) :
    splitter.commandsFrom? position rest =
      some (splitter.commands.reverse ++ commandsBetween (units ++ rest.zipIdx position)) := by
  induction rest generalizing splitter units position with
  | nil =>
    rw [commandsFrom?_nil, result?, inQuote, hasRead.settled.plain, List.zipIdx_nil,
      List.append_nil, ← hasRead.commands_closeCommand]
    rfl
  | cons unit rest inductionHypothesis =>
    obtain ⟨own, others⟩ := List.forall_mem_cons.mp quiet
    obtain ⟨notRight, noMore⟩ := not_or.mp (List.mem_cons.not.mp noArrow)
    have notBefore : rest.head? ≠ some ('>' : CodeUnit) := mt List.mem_of_head? noMore
    rw [commandsFrom?_cons, List.zipIdx_cons]
    cases separates : separatesCommands unit with
    | true =>
      obtain ⟨begins, commands⟩ := hasRead.step_sign own (Ne.symm notRight) notBefore separates
      rw [inductionHypothesis begins others noMore, commands, List.nil_append,
        commandsBetween_append_sign units _ separates, List.append_assoc]
    | false =>
      have sameCommands : (splitter.step position unit rest).commands = splitter.commands := by
        rw [hasRead.step_eq own notBefore, separates, if_neg Bool.false_ne_true]
        split
        · exact commands_closeWord
        · exact commands_openWord
      have goesOn := hasRead.step own (Ne.symm notRight) notBefore separates
      rw [inductionHypothesis goesOn others noMore, sameCommands, List.append_assoc,
        List.singleton_append]

end Splitter

open Splitter

/-- Where nothing is quoted, commented out or redirected, the commands are those of plain
splitting. -/
theorem commands?_eq_plainCommands {content : Text} (quiet : ∀ unit ∈ content, unit ∉ opening)
    (noArrow : ('>' : CodeUnit) ∉ content) : commands? content = some (plainCommands content) := by
  have hasRead : ({} : Splitter).HasRead [] 0 :=
    hasRead_nil 0 settled_start ⟨by simp, by simp⟩ rfl rfl
  have reads := hasRead.commandsFrom? quiet noArrow
  rw [Splitter.commandsFrom?, Nat.zero_add] at reads
  exact reads

theorem commands?_eq_plainCommands_doubledSigns :
    commands? "then ls\u00a0-l;;(a&&do\nb |c\td)time! x" = some
      [[⟨"ls", ⟨5, 7⟩⟩, ⟨"-l", ⟨8, 10⟩⟩], [⟨"a", ⟨13, 14⟩⟩], [⟨"b", ⟨19, 20⟩⟩],
        [⟨"c", ⟨22, 23⟩⟩, ⟨"d", ⟨24, 25⟩⟩], [⟨"time!", ⟨26, 31⟩⟩, ⟨"x", ⟨32, 33⟩⟩]] := by
  have quiet : ∀ unit ∈ ("then ls\u00a0-l;;(a&&do\nb |c\td)time! x" : Text), unit ∉ opening := by
    decide
  exact (commands?_eq_plainCommands quiet (by decide)).trans (by decide +kernel)

end SourceLint.Shell
