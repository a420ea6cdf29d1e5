/-
This file says that the machine that splits a shell text does the same wherever it stands and
whatever commands it has. If each of its words stands in another text as well, at another place or
with more words behind it, then reading a unit keeps that so, provided the words that are still to
end are moved by the same distance as the position. What stands in the place of a word begins with a
word of the same text, so that the words that introduce a command are the same ones.
-/
import SourceLint.Proofs.Shell.Splitter

namespace SourceLint.Shell

/-! ### Words in another text -/

/-- What stands in another text in the place of each word. A word that stops at or after a position
stands alone and is moved to the right. -/
structure Rewriting where
  words : Word → List Word
  moving : Nat
  distance : Nat
  moves : ∀ word, moving ≤ word.span.stop → words word = [word.shift distance]
  begins : ∀ word, ∃ first more, words word = first :: more ∧ first.text = word.text ∧
    (word.isReserved = true → more = [])

/-- A command in another text. -/
def Command.rewrite (rewriting : Rewriting) (command : Command) : Command :=
  command.flatMap rewriting.words

theorem Command.rewrite_eq_nil_iff (rewriting : Rewriting) (command : Command) :
    command.rewrite rewriting = [] ↔ command = [] := by
  rw [rewrite, List.flatMap_eq_nil_iff, List.eq_nil_iff_forall_not_mem]
  refine forall₂_congr fun word _ => ?_
  obtain ⟨first, more, stands, _⟩ := rewriting.begins word
  simp [stands]

/-- The words that introduce a command introduce it in the other text. -/
theorem Command.dropReserved_rewrite (rewriting : Rewriting) (command : Command) :
    Command.dropReserved (command.rewrite rewriting) =
      (Command.dropReserved command).rewrite rewriting := by
  induction command with
  | nil => rfl
  | cons word rest inductionHypothesis =>
    obtain ⟨first, more, stands, sameText, alone⟩ := rewriting.begins word
    have whole : Command.rewrite rewriting (word :: rest) =
        first :: (more ++ Command.rewrite rewriting rest) := by
      rw [rewrite, List.flatMap_cons, stands]
      rfl
    have same : first.isReserved = word.isReserved := by rw [Word.isReserved, sameText]; rfl
    rw [dropReserved, dropReserved, whole]
    cases isReserved : word.isReserved with
    | true =>
      rw [List.dropWhile_cons_of_pos (same.trans isReserved), List.dropWhile_cons_of_pos isReserved,
        alone isReserved]
      exact inductionHypothesis
    | false =>
      rw [List.dropWhile_cons_of_neg (by rw [same, isReserved]; decide),
        List.dropWhile_cons_of_neg (by rw [isReserved]; decide), whole]

/-! ### The machine -/

namespace Splitter

/-- A machine in another text: its words as they stand there, the open one moved, with commands that
it had before and with the unit that stands before it. -/
def rewritten (rewriting : Rewriting) (earlier : List Command) (previous : Option CodeUnit)
    (splitter : Splitter) : Splitter :=
  { splitter with
    previous := previous
    commands := splitter.commands.map (Command.rewrite rewriting) ++ earlier
    words := splitter.words.flatMap fun word => (rewriting.words word).reverse
    word := splitter.word.map fun word => { word with start := word.start + rewriting.distance } }

variable {rewriting : Rewriting} {earlier : List Command} {previous : Option CodeUnit}
  {splitter : Splitter} {position : Nat} {unit : CodeUnit} {rest : Text}

theorem reverse_words_rewritten : (splitter.rewritten rewriting earlier previous).words.reverse =
    Command.rewrite rewriting splitter.words.reverse := by
  rw [rewritten, List.reverse_flatMap]
  simp only [Function.comp_def, List.reverse_reverse]
  rfl

theorem openWord_rewritten :
    (splitter.rewritten rewriting earlier previous).openWord (position + rewriting.distance) =
      (splitter.openWord position).rewritten rewriting earlier previous := by
  obtain ⟨_, _, _, _, word, _⟩ := splitter
  cases word <;> rfl

theorem append_rewritten (units : Text) :
    (splitter.rewritten rewriting earlier previous).append units =
      (splitter.append units).rewritten rewriting earlier previous := by
  obtain ⟨_, _, _, _, word, _⟩ := splitter
  cases word <;> rfl

theorem closeWord_rewritten (rewriting : Rewriting)
    (moves : splitter.word = none ∨ rewriting.moving ≤ position) :
    (splitter.rewritten rewriting earlier previous).closeWord (position + rewriting.distance) =
      (splitter.closeWord position).rewritten rewriting earlier previous := by
  obtain ⟨_, _, commands, words, word, _⟩ := splitter
  cases word with
  | none => rfl
  | some word =>
    have stands := rewriting.moves ⟨word.text, ⟨word.start, position⟩⟩
      (moves.resolve_left (Option.some_ne_none _))
    simp only [closeWord, rewritten, Option.map_some, Option.map_none, List.flatMap_cons, stands]
    rfl

theorem closeCommand_rewritten (moves : splitter.word = none ∨ rewriting.moving ≤ position) :
    (splitter.rewritten rewriting earlier previous).closeCommand (position + rewriting.distance) =
      (splitter.closeCommand position).rewritten rewriting earlier previous := by
  rw [closeCommand, closeCommand, closeWord_rewritten _ moves, reverse_words_rewritten,
    Command.dropReserved_rewrite]
  generalize splitter.closeWord position = closed
  cases kept : Command.dropReserved closed.words.reverse with
  | nil => rfl
  | cons word more =>
    obtain ⟨first, others, stands⟩ := List.exists_cons_of_ne_nil
      (mt (Command.rewrite_eq_nil_iff rewriting (word :: more)).mp (List.cons_ne_nil _ _))
    rw [stands]
    dsimp only [rewritten]
    rw [List.map_cons, stands]
    rfl

theorem endLine_rewritten (moves : splitter.word = none ∨ rewriting.moving ≤ position) :
    (splitter.rewritten rewriting earlier previous).endLine (position + rewriting.distance) =
      (splitter.endLine position).rewritten rewriting earlier previous := by
  rw [endLine, endLine, closeCommand_rewritten moves]
  rfl

/-- Only an ampersand is read with an eye to the unit before. -/
theorem readPlain_rewritten (earlier : List Command) (splitter : Splitter)
    (moves : splitter.word = none ∨ rewriting.moving ≤ position)
    (sameArrow : unit = '&' → isRedirection previous rest = isRedirection splitter.previous rest) :
    (splitter.rewritten rewriting earlier previous).readPlain (position + rewriting.distance) unit
        rest =
      (splitter.readPlain position unit rest).rewritten rewriting earlier previous := by
  have sameWord : (splitter.rewritten rewriting earlier previous).word.isNone =
      splitter.word.isNone := Option.isNone_map
  have samePrevious : (unit = '&' && isRedirection
      (splitter.rewritten rewriting earlier previous).previous rest) =
        (unit = '&' && isRedirection splitter.previous rest) := by
    by_cases isAmpersand : unit = '&'
    · rw [← sameArrow isAmpersand]
      rfl
    · rw [decide_eq_false isAmpersand, Bool.false_and, Bool.false_and]
  unfold readPlain
  rw [sameWord, samePrevious, openWord_rewritten, closeWord_rewritten _ moves,
    closeCommand_rewritten moves, endLine_rewritten moves, append_rewritten]
  simp only [apply_ite (rewritten rewriting earlier previous)]
  cases rest with
  | nil => rfl
  | cons next more =>
    simp only [apply_ite (rewritten rewriting earlier previous)]
    rfl

section Reading

variable (moves : splitter.word = none ∨ rewriting.moving ≤ position)
  (sameArrow : unit = '&' → isRedirection previous rest = isRedirection splitter.previous rest)

include moves sameArrow

theorem readDelimiter_rewritten (stripsTabs : Bool) (reader : DelimiterReader) :
    (splitter.rewritten rewriting earlier previous).readDelimiter stripsTabs reader
        (position + rewriting.distance) unit rest =
      (splitter.readDelimiter stripsTabs reader position unit rest).rewritten rewriting earlier
        previous := by
  have plain (document : HereDocument) := readPlain_rewritten earlier
    { splitter with mode := .plain, pending := splitter.pending ++ [document] } moves sameArrow
  unfold readDelimiter
  dsimp only
  cases reader.quote with
  | none =>
    simp only [apply_ite (rewritten rewriting earlier previous), ← plain]
    rfl
  | some quote =>
    simp only [apply_ite (rewritten rewriting earlier previous)]
    rfl

theorem readDelimiterGap_rewritten (stripsTabs : Bool) :
    (splitter.rewritten rewriting earlier previous).readDelimiterGap stripsTabs
        (position + rewriting.distance) unit rest =
      (splitter.readDelimiterGap stripsTabs position unit rest).rewritten rewriting earlier
        previous := by
  rw [readDelimiterGap, readDelimiterGap, readDelimiter_rewritten moves sameArrow]
  simp only [apply_ite (rewritten rewriting earlier previous)]
  rfl

omit moves sameArrow in
theorem endBodyLine_rewritten (line : Text) :
    (splitter.rewritten rewriting earlier previous).endBodyLine line =
      (splitter.endBodyLine line).rewritten rewriting earlier previous := by
  obtain ⟨_, _, _, _, _, pending⟩ := splitter
  cases pending with
  | nil => rfl
  | cons document others =>
    simp only [endBodyLine, apply_ite (rewritten rewriting earlier previous)]
    rfl

theorem read_rewritten :
    (splitter.rewritten rewriting earlier previous).read (position + rewriting.distance) unit rest =
      (splitter.read position unit rest).rewritten rewriting earlier previous := by
  have sameMode : (splitter.rewritten rewriting earlier previous).mode = splitter.mode := rfl
  unfold read
  rw [sameMode]
  cases splitter.mode with
  | plain => exact readPlain_rewritten _ _ moves sameArrow
  | singleQuoted | doubleQuoted | escaped | quotedEscape =>
    dsimp only
    simp only [apply_ite (rewritten rewriting earlier previous), append_rewritten]
    rfl
  | continuation => rfl
  | comment =>
    simp only [apply_ite (rewritten rewriting earlier previous), endLine_rewritten moves]
  | operatorTail => rfl
  | operatorHyphen =>
    simp only [apply_ite (rewritten rewriting earlier previous),
      readDelimiterGap_rewritten moves sameArrow]
    rfl
  | delimiterGap stripsTabs => exact readDelimiterGap_rewritten moves sameArrow stripsTabs
  | delimiter stripsTabs reader => exact readDelimiter_rewritten moves sameArrow stripsTabs reader
  | body line =>
    simp only [apply_ite (rewritten rewriting earlier previous), endBodyLine_rewritten]
    rfl

theorem step_rewritten :
    (splitter.rewritten rewriting earlier previous).step (position + rewriting.distance) unit rest =
      (splitter.step position unit rest).rewritten rewriting earlier (some unit) := by
  rw [step, step, read_rewritten moves sameArrow]
  rfl

end Reading

/-- A machine whose further words are all moved reads a text as it does elsewhere. -/
theorem run_rewritten (moves : rewriting.moving ≤ position) (text : Text) :
    (splitter.rewritten rewriting earlier splitter.previous).run (position + rewriting.distance)
        text =
      (splitter.run position text).rewritten rewriting earlier
        (splitter.run position text).previous := by
  induction text generalizing splitter position with
  | nil => rfl
  | cons unit rest inductionHypothesis =>
    rw [run, run, step_rewritten (Or.inr moves) (fun _ => rfl), Nat.add_right_comm]
    exact inductionHypothesis (Nat.le_succ_of_le moves)

theorem closeWord_run_rewritten (rewriting : Rewriting) (moves : rewriting.moving ≤ position)
    (text : Text) {stop : Nat} (movesStop : rewriting.moving ≤ stop) :
    ∃ last, ((splitter.rewritten rewriting earlier splitter.previous).run
      (position + rewriting.distance) text).closeWord (stop + rewriting.distance) =
        ((splitter.run position text).closeWord stop).rewritten rewriting earlier last := by
  rw [run_rewritten moves]
  exact ⟨_, closeWord_rewritten _ (Or.inr movesStop)⟩

theorem closeWord_of_no_word (isNone : splitter.word = none) :
    splitter.closeWord position = splitter := by
  rw [closeWord, isNone]

/-- A command whose last word has ended already may end anywhere. -/
theorem closeCommand_closeWord (other : Nat) :
    (splitter.closeWord position).closeCommand other = splitter.closeCommand position := by
  rw [closeCommand, closeCommand, closeWord_of_no_word word_closeWord]

end Splitter

/-- The commands of a text by the machine at its end, once the last word has ended. -/
theorem commands?_eq_of_closeWord (content : Text) (other : Nat) {closed : Splitter}
    (ends : (({} : Splitter).run 0 content).closeWord content.length = closed) :
    commands? content =
      if closed.inQuote then none else some (closed.closeCommand other).commands.reverse := by
  rw [← ends, Splitter.closeCommand_closeWord, Splitter.inQuote, Splitter.mode_closeWord]
  rfl

/-- The commands of a text whose machine ends as the one of another text. -/
theorem commands?_of_closeWord_rewritten {rewriting : Rewriting} {earlier : List Command}
    {previous : Option CodeUnit} {content whole : Text}
    (ends : (({} : Splitter).run 0 whole).closeWord whole.length =
      ((({} : Splitter).run 0 content).closeWord content.length).rewritten rewriting earlier
        previous) :
    commands? whole = (commands? content).map fun commands =>
      earlier.reverse ++ commands.map (Command.rewrite rewriting) := by
  rw [commands?_eq_of_closeWord whole (content.length + rewriting.distance) ends,
    commands?_eq_of_closeWord content content.length rfl,
    Splitter.closeCommand_rewritten (Or.inl Splitter.word_closeWord)]
  generalize (({} : Splitter).run 0 content).closeWord content.length = last
  have sameQuote : (last.rewritten rewriting earlier previous).inQuote = last.inQuote := rfl
  rw [sameQuote]
  cases last.inQuote with
  | true => rfl
  | false =>
    refine congrArg some ?_
    rw [Splitter.rewritten, List.reverse_append, ← List.map_reverse]

end SourceLint.Shell
