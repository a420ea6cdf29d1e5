/-
Simple commands of a shell text: words with their places. Words that only introduce a command, such
as `then` or `do`, do not belong to it.
-/
import SourceLint.Span

namespace SourceLint.Shell

/-- A word: its text without quotes, expansions as they are, and its place with its quotes. -/
structure Word where
  text : Text
  span : Span
  deriving DecidableEq, Repr

/-- The words of a simple command. -/
abbrev Command := List Word

/-- The words that introduce a command. -/
def reservedWords : List Text :=
  ["if", "then", "elif", "else", "do", "while", "until", "!", "\x7b", "time"]

/-- A word introduces a command. -/
def Word.isReserved (word : Word) : Bool := reservedWords.contains word.text

/-- The words of a command without those that introduce it. -/
def Command.dropReserved (command : Command) : Command := command.dropWhile Word.isReserved

/-- A word moved to the right. -/
def Word.shift (word : Word) (distance : Nat) : Word :=
  { word with span := word.span.shift distance }

/-- A command moved to the right. -/
def Command.shift (command : Command) (distance : Nat) : Command :=
  command.map fun word => word.shift distance

end SourceLint.Shell
