/-
This file says what the machine that splits a shell text makes of the rest of a text: the commands
that it has at the end. That is all a caller sees, and it depends on less than the machine itself:
the unit read last counts only before an ampersand, and at the start of a line only the commands
count and the here-documents whose bodies are still to come.
-/
import SourceLint.Proofs.Shell.Insertion
import SourceLint.Proofs.Shell.Sequence

namespace SourceLint.Shell

namespace Splitter

/-- The commands of a machine at the end of a text, or nothing if a quote is open there. -/
def result? (splitter : Splitter) (stop : Nat) : Option (List Command) :=
  if splitter.inQuote then none else some (splitter.closeCommand stop).commands.reverse

/-- The commands of a machine once it has read the rest of a text, which begins at a position. -/
def commandsFrom? (splitter : Splitter) (position : Nat) (rest : Text) : Option (List Command) :=
  (splitter.run position rest).result? (position + rest.length)

variable {splitter : Splitter} {position : Nat} {unit : CodeUnit} {rest : Text}

theorem commandsFrom?_nil : splitter.commandsFrom? position [] = splitter.result? position := rfl

theorem commandsFrom?_cons :
    splitter.commandsFrom? position (unit :: rest) =
      (splitter.step position unit rest).commandsFrom? (position + 1) rest := by
  rw [commandsFrom?, commandsFrom?, run, List.length_cons, Nat.add_assoc, Nat.add_comm 1]

/-! ### What the result does not depend on -/

theorem result?_rewritten (rewriting : Rewriting) (everything : rewriting.moving = 0)
    (earlier : List Command) (previous : Option CodeUnit) (stop : Nat) :
    (splitter.rewritten rewriting earlier previous).result? (stop + rewriting.distance) =
      (splitter.result? stop).map fun commands =>
        earlier.reverse ++ commands.map (Command.rewrite rewriting) := by
  have sameQuote : (splitter.rewritten rewriting earlier previous).inQuote = splitter.inQuote := rfl
  rw [result?, result?, sameQuote,
    closeCommand_rewritten (Or.inr (everything ▸ Nat.zero_le _))]
  cases splitter.inQuote with
  | true => rfl
  | false =>
    refine congrArg some ?_
    rw [rewritten, List.reverse_append, ← List.map_reverse]

theorem map_rewrite_shifting_zero (commands : List Command) :
    commands.map (Command.rewrite (.shifting 0)) = commands :=
  (List.map_congr_left fun command _ =>
    (command.rewrite_shifting 0).trans (List.map_id command)).trans (List.map_id commands)

/-- Nothing is moved, and another unit was read last. -/
theorem rewritten_shifting_zero (splitter : Splitter) (previous : Option CodeUnit) :
    splitter.rewritten (.shifting 0) [] previous = { splitter with previous := previous } := by
  have sameWords : splitter.words.flatMap (fun word =>
      ((Rewriting.shifting 0).words word).reverse) = splitter.words :=
    List.flatMap_singleton' splitter.words
  have sameWord : splitter.word.map (fun word => { word with start := word.start + 0 }) =
      splitter.word := Option.map_id'
  rw [rewritten, map_rewrite_shifting_zero, sameWords, List.append_nil]
  exact congrArg (fun word => { splitter with previous := previous, word := word }) sameWord

/-- The unit read last counts before an ampersand only. -/
theorem commandsFrom?_previous (splitter : Splitter) (previous : Option CodeUnit)
    (notAmpersand : rest.head? ≠ some ('&' : CodeUnit)) :
    { splitter with previous := previous }.commandsFrom? position rest =
      splitter.commandsFrom? position rest := by
  rw [← rewritten_shifting_zero]
  cases rest with
  | nil =>
    rw [commandsFrom?_nil, commandsFrom?_nil]
    refine (result?_rewritten (.shifting 0) rfl [] previous position).trans ?_
    simp only [List.reverse_nil, List.nil_append, map_rewrite_shifting_zero, Option.map_id']
  | cons unit rest =>
    have same : (splitter.rewritten (.shifting 0) [] previous).step position unit rest =
        splitter.step position unit rest :=
      (step_rewritten (Or.inr (Nat.zero_le _)) fun isAmpersand =>
        absurd (congrArg some isAmpersand) notAmpersand).trans (rewritten_shifting_zero _ _)
    rw [commandsFrom?_cons, commandsFrom?_cons, same]

/-- A machine that is at the start again finds the commands of the rest, after those that it has. -/
theorem commandsFrom?_again (earlier : List Command) (position : Nat) (text : Text) :
    ({ previous := some 0x0A, commands := earlier } : Splitter).commandsFrom? position text =
      (commands? text).map fun more =>
        earlier.reverse ++ more.map fun command => command.shift position := by
  obtain ⟨previous, moved⟩ := run_lineFeed (.shifting position) rfl earlier text
  have again : ({ previous := some 0x0A, commands := earlier } : Splitter).run position text =
      (({} : Splitter).run 0 text).rewritten (.shifting position) earlier previous := moved
  rw [commandsFrom?, again, Nat.add_comm]
  refine (result?_rewritten (.shifting position) rfl earlier previous text.length).trans ?_
  refine congrArg (Option.map · _) (funext fun more => congrArg _ ?_)
  exact List.map_congr_left fun command _ => command.rewrite_shifting position

/-! ### Units that begin nothing -/

/-- The units with which quotes, comments and here-documents begin, and the backslash. -/
def opening : Text := "\\\x27\"#<"

theorem readPlain_of_quiet (quiet : unit ∉ opening) :
    splitter.readPlain position unit rest =
      if unit = '&' && isRedirection splitter.previous rest then
        (splitter.openWord position).append [unit]
      else if unit = 0x0A then splitter.endLine position
      else if isOperator unit then splitter.closeCommand position
      else if unit.isBlank then splitter.closeWord position
      else (splitter.openWord position).append [unit] := by
  have unlike : unit ≠ '\\' ∧ unit ≠ 0x27 ∧ unit ≠ '"' ∧ unit ≠ '#' ∧ unit ≠ '<' := by
    refine ⟨?_, ?_, ?_, ?_, ?_⟩ <;>
    · rintro rfl
      exact quiet (by decide)
  obtain ⟨notBackslash, notSingle, notDouble, notHash, notSign⟩ := unlike
  unfold readPlain
  rw [if_neg notBackslash, if_neg notSingle, if_neg notDouble, decide_eq_false notHash,
    decide_eq_false notSign, Bool.false_and, Bool.false_and, if_neg Bool.false_ne_true,
    if_neg Bool.false_ne_true]

/-- A machine outside of quotes, with no here-document to come. -/
structure Settled (splitter : Splitter) : Prop where
  plain : splitter.mode = .plain
  pending : splitter.pending = []

theorem settled_start : Settled {} := ⟨rfl, rfl⟩

theorem Settled.readPlain (settled : splitter.Settled) (quiet : unit ∉ opening) :
    (splitter.readPlain position unit rest).Settled := by
  obtain ⟨plain, pending⟩ := settled
  rw [readPlain_of_quiet quiet]
  repeat' split
  case isFalse.isTrue => rw [endLine_of_pending pending]; exact ⟨rfl, by simpa using pending⟩
  all_goals exact ⟨by simpa using plain, by simpa using pending⟩

theorem Settled.step (settled : splitter.Settled) (quiet : unit ∉ opening) :
    (splitter.step position unit rest).Settled := by
  rw [step_of_plain settled.plain]
  exact ⟨(settled.readPlain quiet).plain, (settled.readPlain quiet).pending⟩

theorem Settled.run {text : Text} (settled : splitter.Settled)
    (quiet : ∀ unit ∈ text, unit ∉ opening) : (splitter.run position text).Settled := by
  induction text generalizing splitter position with
  | nil => exact settled
  | cons unit rest inductionHypothesis =>
    obtain ⟨own, others⟩ := List.forall_mem_cons.mp quiet
    exact inductionHypothesis (settled.step own) others

end Splitter

open Splitter

/-- A text of such units is read before another text as it is read alone. -/
theorem commands?_append_of_quiet {before rest : Text} (quiet : ∀ unit ∈ before, unit ∉ opening)
    (noArrow : rest.head? ≠ some ('>' : CodeUnit)) :
    commands? (before ++ rest) =
      (({} : Splitter).run 0 before).commandsFrom? before.length rest := by
  have alone : ({} : Splitter).runTo 0 rest before = ({} : Splitter).run 0 before := by
    rw [← runTo_nil]
    have unlike (unit : CodeUnit) (isLast : before.getLast? = some unit) : unit ∉ opening :=
      quiet unit (List.mem_of_getLast? isLast)
    refine runTo_congr _ _ (fun unit isLast => ⟨?_, fun _ => ?_, ?_⟩) fun isSign => ?_
    · rintro rfl
      exact absurd (by decide) (unlike _ isLast)
    · simp [noArrow]
    · rintro rfl
      exact absurd (by decide) (unlike _ isLast)
    · exact absurd (by decide) (unlike _ isSign)
  rw [commands?, run_append, alone, Nat.zero_add, List.length_append]
  rfl

/-- A text of such units has commands. -/
theorem commands?_of_quiet {before : Text} (quiet : ∀ unit ∈ before, unit ∉ opening) :
    commands? before =
      some ((({} : Splitter).run 0 before).closeCommand before.length).commands.reverse := by
  have settled : (({} : Splitter).run 0 before).Settled := settled_start.run quiet
  rw [commands?, inQuote, settled.plain]
  rfl

end SourceLint.Shell
