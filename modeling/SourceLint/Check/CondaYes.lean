/-
The check that scripts do not stop at a question of conda: a command that would ask has to be told
`-y`. Flags before the subcommand are passed over, except for those that make conda show something
and end.
-/
import SourceLint.Linter
import SourceLint.Shell.Splitter

namespace SourceLint.CondaYes

open Shell (Word Command)

/-- The name of the check, which directives use. -/
def checkName : Text := "verify-conda-yes"

/-- The arguments that answer all questions. -/
def yesArguments : List Text := ["-y", "--yes"]

/-- The subcommands that ask. -/
def interactiveSubcommands : List Text :=
  ["clean", "create", "install", "remove", "uninstall", "update", "upgrade"]

/-- The flags that make conda show something and end. -/
def endingFlags : List Text := ["-h", "--help", "-V"]

/-- The flags that may stand before the subcommand. -/
def leadingFlags : List Text := ["-h", "--help", "--no-plugins", "-V"]

/-- The subcommand of conda that a command would ask about, if it does and is not answered yet. -/
def unanswered? (command : Command) : Option Word :=
  match command with
  | [] => none
  | program :: arguments =>
    if program.text = Text.ofString "conda" then
      let isFlag (word : Word) : Bool := leadingFlags.contains word.text
      match arguments.dropWhile isFlag with
      | [] => none
      | subcommand :: rest =>
        let ends := (arguments.takeWhile isFlag).any fun word => endingFlags.contains word.text
        let answered := rest.any fun word => yesArguments.contains word.text
        if interactiveSubcommands.contains subcommand.text && !ends && !answered then
          some subcommand
        else none
    else none

/-- The warning on a command, with the argument that it needs after its subcommand. -/
def commandWarning? (command : Command) : Option Warning := do
  let subcommand ← unanswered? command
  let program ← command.head?
  let stop := subcommand.span.stop
  return ⟨⟨program.span.start, stop⟩, "add -y argument", [⟨.point stop, " -y"⟩], []⟩

/-- The warnings on a shell script. -/
def check (source : Source) : Except LintError (List Warning) :=
  match Shell.commands? source.content with
  | none => .error (.unparsable source.filename .unterminatedQuote)
  | some commands => .ok (commands.filterMap commandWarning?)

end SourceLint.CondaYes
