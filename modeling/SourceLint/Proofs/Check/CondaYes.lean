/-
This file proves that the warnings on commands of conda are sound. They only insert, and what they
insert goes after a word that is one of the known subcommands; such a word has no carriage return,
so the place after it is not inside a line ending.
-/
import SourceLint.Check.CondaYes
import SourceLint.Proofs.Shell.Splitter

namespace SourceLint.CondaYes

open Shell (Word Command)

/-- The subcommand that a command would ask about is one of its arguments. -/
theorem unanswered?_eq_some (program : Word) (arguments : List Word) (subcommand : Word)
    (asks : unanswered? (program :: arguments) = some subcommand) :
    subcommand ∈ arguments ∧ subcommand.text ∈ interactiveSubcommands := by
  rw [unanswered?] at asks
  split at asks
  · dsimp only at asks
    split at asks
    · cases asks
    case h_2 found rest isFound =>
      split at asks
      case isTrue interactive =>
        cases asks
        rw [Bool.and_eq_true, Bool.and_eq_true, List.contains_iff_mem] at interactive
        have isArgument : subcommand ∈ arguments.dropWhile fun word =>
            leadingFlags.contains word.text := isFound ▸ List.mem_cons_self
        exact ⟨(List.dropWhile_sublist _).subset isArgument, interactive.1.1⟩
      case isFalse => cases asks
  · cases asks

theorem commandWarning?_eq_some (command : Command) (warning : Warning)
    (warns : commandWarning? command = some warning) :
    ∃ program arguments subcommand message newText, command = program :: arguments ∧
      subcommand ∈ arguments ∧ subcommand.text ∈ interactiveSubcommands ∧
      warning = ⟨⟨program.span.start, subcommand.span.stop⟩, message,
        [⟨.point subcommand.span.stop, newText⟩], []⟩ := by
  obtain ⟨subcommand, asks, warns⟩ := Option.bind_eq_some_iff.mp warns
  obtain ⟨program, isFirst, warns⟩ := Option.bind_eq_some_iff.mp warns
  cases warns
  obtain ⟨arguments, rfl⟩ := List.head?_eq_some_iff.mp isFirst
  obtain ⟨isArgument, interactive⟩ := unanswered?_eq_some program arguments subcommand asks
  exact ⟨program, arguments, subcommand, _, _, rfl, isArgument, interactive, rfl⟩

theorem not_mem_of_interactive : ∀ text ∈ interactiveSubcommands, 0x0D ∉ text := by decide

/-- The warnings on a shell script are sound. -/
theorem sound_check (source : Source) (warnings : List Warning)
    (checks : check source = .ok warnings) : Sound source.content warnings := by
  rw [check] at checks
  split at checks
  · cases checks
  case h_2 commands splits =>
    cases checks
    obtain ⟨inText, ordered⟩ := Shell.words_of_commands? source.content commands splits
    have place (warning : Warning) (member : warning ∈ commands.filterMap commandWarning?) :
        ∃ span stop message newText, warning = ⟨span, message, [⟨.point stop, newText⟩], []⟩ ∧
          span.PlacedIn source.content ∧ (Span.point stop).PlacedIn source.content := by
      obtain ⟨command, isCommand, warns⟩ := List.mem_filterMap.mp member
      obtain ⟨program, arguments, subcommand, message, newText, rfl, isArgument, interactive,
        rfl⟩ :=
        commandWarning?_eq_some command warning warns
      have words := List.sublist_flatten_of_mem isCommand
      have programIn := inText program (words.subset List.mem_cons_self)
      have subcommandIn := inText subcommand (words.subset (List.mem_cons_of_mem _ isArgument))
      have apart := (List.pairwise_cons.mp (ordered.sublist words)).1 subcommand isArgument
      have forward := programIn.proper
      have proper := subcommandIn.proper
      refine ⟨_, _, message, newText, rfl, ⟨?_, subcommandIn.inside, ?_⟩,
        .point subcommandIn.inside ?_⟩
      · dsimp only
        omega
      · exact Text.not_splitsBreak_of_ne _ _ programIn.begins
      · exact fun inside => not_mem_of_interactive _ interactive (subcommandIn.ends inside)
    refine ⟨fun warning member => ?_, Replacement.apart_of_points _ ?_⟩
    · obtain ⟨span, stop, message, newText, rfl, spanPlaced, pointPlaced⟩ := place warning member
      exact .of_parts spanPlaced (by simp) (List.forall_mem_singleton.mpr pointPlaced)
    · intro replacement member
      obtain ⟨warning, isWarning, isReplacement⟩ := List.mem_flatMap.mp member
      obtain ⟨span, stop, message, newText, rfl, _⟩ := place warning isWarning
      cases List.mem_singleton.mp isReplacement
      rfl

end SourceLint.CondaYes
