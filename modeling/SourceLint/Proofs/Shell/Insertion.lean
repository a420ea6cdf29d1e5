/-
This file says what a word does that is put behind another word of a command, with a blank between
them: the command has the new word behind the other one, and all else stays as it was. The word that
stands before the place ends there anyway, so the blank changes nothing; the new word has only units
that stand for themselves, so it leaves the machine outside of quotes; and the unit that ended the
one word ends the other.
-/
import SourceLint.Proofs.Linter.Splice
import SourceLint.Proofs.Shell.WordEnd

namespace SourceLint.Shell

/-! ### The words of the new text -/

/-- The word of a text that stands behind another word, with a blank between them. -/
def Word.behind (word : Word) (text : Text) : Word :=
  ⟨text, ⟨word.span.stop + 1, word.span.stop + 1 + text.length⟩⟩

theorem Word.shift_shift (word : Word) (first second : Nat) :
    (word.shift first).shift second = word.shift (first + second) := by
  simp [Word.shift, Span.shift, Nat.add_assoc]

theorem Word.shift_behind (word : Word) (text : Text) (distance : Nat) :
    (word.behind text).shift distance = (word.shift distance).behind text := by
  simp only [Word.behind, Word.shift, Span.shift, Word.mk.injEq, Span.mk.injEq, true_and]
  omega

/-- A word is put behind another one, and the words after that are moved. -/
def Rewriting.inserting (target : Word) (text : Text) (notReserved : target.isReserved = false) :
    Rewriting where
  words word :=
    if word = target then [word, word.behind text]
    else if word.span.stop ≤ target.span.stop then [word]
    else [word.shift (text.length + 1)]
  moving := target.span.stop + 1
  distance := text.length + 1
  moves word beyond := by
    have other : word ≠ target := by
      rintro rfl
      exact Nat.not_succ_le_self _ beyond
    rw [if_neg other, if_neg (Nat.not_le_of_lt beyond)]
  begins word := by
    split
    case isTrue isTarget =>
      subst isTarget
      refine ⟨word, _, rfl, rfl, fun isReserved => ?_⟩
      rw [notReserved] at isReserved
      cases isReserved
    · split
      · exact ⟨word, [], rfl, rfl, fun _ => rfl⟩
      · exact ⟨word.shift _, [], rfl, rfl, fun _ => rfl⟩

namespace Rewriting

variable {target : Word} {text : Text} {notReserved : target.isReserved = false} {word : Word}

theorem words_inserting_self :
    (inserting target text notReserved).words target = [target, target.behind text] :=
  if_pos rfl

theorem words_inserting_of_le (other : word ≠ target) (before : word.span.stop ≤ target.span.stop) :
    (inserting target text notReserved).words word = [word] :=
  (if_neg other).trans (if_pos before)

theorem words_inserting_of_lt (beyond : target.span.stop < word.span.stop) :
    (inserting target text notReserved).words word = [word.shift (text.length + 1)] :=
  (inserting target text notReserved).moves word beyond

end Rewriting

/-- The text with a word put behind one of its words. -/
def Word.followedBy (word : Word) (text content : Text) : Text :=
  (⟨.point word.span.stop, 0x20 :: text⟩ : Replacement).putInto content

namespace Splitter

/-! ### Reading the new word -/

section Reading

variable {splitter : Splitter} {position : Nat} {unit : CodeUnit} {rest : Text}

theorem previous_closeWord : (splitter.closeWord position).previous = splitter.previous := by
  rw [closeWord]
  split <;> rfl

theorem step_of_plain (plain : splitter.mode = .plain) :
    splitter.step position unit rest =
      { splitter.readPlain position unit rest with previous := some unit } := by
  rw [step, read, plain]

/-- Once the word has ended, a unit that ends words does the same. -/
theorem step_closeWord (plain : splitter.mode = .plain)
    (ends : endsWord splitter.previous unit rest = true) :
    (splitter.closeWord position).step position unit rest = splitter.step position unit rest := by
  rw [step_of_plain plain, step_of_plain (mode_closeWord.trans plain), readPlain_closeWord ends]

theorem step_blank (plain : splitter.mode = .plain) :
    splitter.step position 0x20 rest = { splitter.closeWord position with previous := some 0x20 } := by
  rw [step_of_plain plain, readPlain_of_endsWord rfl]
  rfl

/-- Units that stand for themselves go to the open word, or to one that begins. -/
theorem exists_runTo_of_isOrdinary (splitter : Splitter) (position : Nat)
    (plain : splitter.mode = .plain) (ordinary : ∀ other ∈ unit :: rest, isOrdinary other = true) (behind : Text) :
    ∃ last, isOrdinary last = true ∧ splitter.runTo position behind (unit :: rest) =
      { (splitter.openWord position).append (unit :: rest) with previous := some last } := by
  induction rest generalizing splitter position unit with
  | nil =>
    have own := ordinary unit List.mem_cons_self
    refine ⟨unit, own, ?_⟩
    rw [runTo, runTo, step_of_plain plain, readPlain_of_isOrdinary own]
  | cons next more inductionHypothesis =>
    obtain ⟨own, others⟩ := List.forall_mem_cons.mp ordinary
    have stepped : splitter.step position unit (next :: more ++ behind) =
        { (splitter.openWord position).append [unit] with previous := some unit } := by
      rw [step_of_plain plain, readPlain_of_isOrdinary own]
    obtain ⟨last, isLast, runs⟩ := inductionHypothesis
      (splitter.step position unit (next :: more ++ behind)) (position + 1)
      (by rw [stepped]; exact mode_openWord.trans plain) others
    refine ⟨last, isLast, ?_⟩
    rw [runTo, runs, stepped]
    obtain ⟨_, _, _, _, word, _⟩ := splitter
    cases word <;> simp [openWord, append]

theorem isRedirection_of_isOrdinary {previous : Option CodeUnit} {last : CodeUnit}
    (ordinary : isOrdinary last = true) (separate : isRedirection previous rest = false) :
    isRedirection (some last) rest = false := by
  rw [isRedirection, Bool.or_eq_false_iff] at separate ⊢
  have notRight : last ≠ '>' := ne_of_isOrdinary ordinary _ (by decide)
  have notLeft : last ≠ '<' := ne_of_isOrdinary ordinary _ (by decide)
  exact ⟨by simp [notRight, notLeft], separate.2⟩

/-- A unit that ends a word ends another one in its place, if that has no arrow at its end. -/
theorem endsWord_of_isOrdinary {previous : Option CodeUnit} {last : CodeUnit}
    (ordinary : isOrdinary last = true) (ends : endsWord previous unit rest = true) :
    endsWord (some last) unit rest = true ∧
      (unit = '&' → isRedirection (some last) rest = isRedirection previous rest) := by
  by_cases isAmpersand : unit = '&'
  · subst isAmpersand
    have separate : isRedirection previous rest = false := by
      cases joined : isRedirection previous rest with
      | true =>
        rw [endsWord, joined] at ends
        cases ends
      | false => rfl
    have still := isRedirection_of_isOrdinary ordinary separate
    exact ⟨by rw [endsWord, still]; rfl, fun _ => still.trans separate.symm⟩
  · refine ⟨?_, fun same => absurd same isAmpersand⟩
    rw [endsWord, decide_eq_false isAmpersand, Bool.false_and] at ends ⊢
    exact ends

end Reading

/-! ### The machine behind the new word -/

section Behind

variable {content : Text} {target : Word} {text : Text}
  {notReserved : target.isReserved = false}

/-- Words that stop before the end of the target stay. -/
theorem words_inserting_of_before {command : Command}
    (before : ∀ word ∈ command, word.span.stop < target.span.stop) :
    ∀ word ∈ command, (Rewriting.inserting target text notReserved).words word = [word] := by
  intro word member
  refine Rewriting.words_inserting_of_le ?_ (Nat.le_of_lt (before word member))
  rintro rfl
  exact Nat.lt_irrefl _ (before _ member)

theorem rewrite_of_before {command : Command}
    (before : ∀ word ∈ command, word.span.stop < target.span.stop) :
    command.rewrite (.inserting target text notReserved) = command := by
  rw [Command.rewrite, List.flatMap_congr (words_inserting_of_before before)]
  exact List.flatMap_singleton' command

/-- The machine that has read a blank and a new word behind the target. -/
def withWordBehind (content : Text) (target : Word) (text : Text) (last : CodeUnit) : Splitter :=
  { ((upTo content target.span.stop).closeWord target.span.stop) with
    previous := some last
    word := some ⟨target.span.stop + 1, text⟩ }

theorem closeWord_withWordBehind (text : Text) (notReserved : target.isReserved = false)
    (wordIn : target.In content) (endsIn : target.EndsIn content) (last : CodeUnit) :
    (withWordBehind content target text last).closeWord (target.span.stop + (text.length + 1)) =
      ((upTo content target.span.stop).closeWord target.span.stop).rewritten
        (.inserting target text notReserved) [] (some last) := by
  have before (word : Word) (member : word ∈ (upTo content target.span.stop).found) :=
    (endsIn_of_mem_found wordIn.inside member).1
  have isOpen := endsIn.isOpen
  rw [withWordBehind]
  generalize upTo content target.span.stop = splitter at before isOpen
  obtain ⟨mode, previous, commands, words, word, pending⟩ := splitter
  cases isOpen
  have wordsStay : (words.flatMap fun word =>
      ((Rewriting.inserting target text notReserved).words word).reverse) = words := by
    refine (List.flatMap_congr fun word member => ?_).trans (List.flatMap_singleton' words)
    rw [words_inserting_of_before (fun word member => before word (List.mem_append_left _ member))
      word member]
    rfl
  have commandsStay : commands.map (Command.rewrite (.inserting target text notReserved)) =
      commands := by
    refine (List.map_congr_left fun command member => rewrite_of_before fun word inCommand =>
      before word (List.mem_append_right _ ?_)).trans (List.map_id commands)
    exact List.mem_flatMap.mpr ⟨command, member, List.mem_reverse.mpr inCommand⟩
  have stop : target.span.stop + (text.length + 1) = target.span.stop + 1 + text.length := by omega
  dsimp only [closeWord, rewritten]
  rw [List.flatMap_cons, wordsStay, commandsStay, List.append_nil, Rewriting.words_inserting_self,
    stop]
  rfl

/-- Reading a text with a new word leads to the machine that has read the word. -/
theorem run_followedBy (wordIn : target.In content) (endsIn : target.EndsIn content)
    (targetOrdinary : ∀ unit ∈ target.text, isOrdinary unit = true) (nonempty : text ≠ [])
    (ordinary : ∀ unit ∈ text, isOrdinary unit = true) :
    ∃ last, isOrdinary last = true ∧
      ({} : Splitter).run 0 (target.followedBy text content) =
        (withWordBehind content target text last).run (target.span.stop + (text.length + 1))
          (content.drop target.span.stop) := by
  obtain ⟨unit, rest, rfl⟩ := List.exists_cons_of_ne_nil nonempty
  -- The text up to the place is read as before, whatever follows.
  have first : ({} : Splitter).runTo 0 (0x20 :: (unit :: rest ++ content.drop target.span.stop))
      (content.take target.span.stop) = upTo content target.span.stop := by
    refine runTo_congr _ _ (fun other isLast => ?_) fun isSign => ?_
    · obtain ⟨notBackslash, notAmpersand, notSign⟩ :=
        endsIn.ne_of_last wordIn targetOrdinary isLast
      exact ⟨fun same => absurd same notBackslash, fun same => absurd same notAmpersand,
        fun same => absurd same notSign⟩
    · exact absurd rfl (endsIn.ne_of_last wordIn targetOrdinary isSign).2.2
  have ended : ((upTo content target.span.stop).closeWord target.span.stop).word = none :=
    word_closeWord
  obtain ⟨last, isLast, runs⟩ := exists_runTo_of_isOrdinary
    { (upTo content target.span.stop).closeWord target.span.stop with previous := some 0x20 }
    (target.span.stop + 1) (mode_closeWord.trans endsIn.plain) ordinary (content.drop target.span.stop)
  refine ⟨last, isLast, ?_⟩
  have whole : target.followedBy (unit :: rest) content = content.take target.span.stop ++
      (0x20 :: (unit :: rest ++ content.drop target.span.stop)) := by
    rw [Word.followedBy, Replacement.putInto]
    simp [Span.point]
  rw [whole, run_append, first, List.length_take_of_le wordIn.inside, Nat.zero_add, run,
    step_blank endsIn.plain, run_append, runs, withWordBehind,
    show target.span.stop + 1 + (unit :: rest).length =
      target.span.stop + ((unit :: rest).length + 1) by omega]
  generalize (upTo content target.span.stop).closeWord target.span.stop = closed at ended
  obtain ⟨_, _, _, _, word, _⟩ := closed
  cases ended
  rfl

end Behind

end Splitter

open Splitter

theorem length_followedBy {content : Text} {target : Word} (wordIn : target.In content)
    (text : Text) :
    (target.followedBy text content).length = content.length + (text.length + 1) := by
  have inside := wordIn.inside
  simp only [Word.followedBy, Replacement.putInto, Span.point, List.length_append,
    List.length_take_of_le inside, List.length_cons, List.length_drop]
  omega

/-- The machine at the end of a text with a word put behind one of its words. -/
theorem closeWord_run_followedBy {content : Text} {target : Word} (wordIn : target.In content)
    (endsIn : target.EndsIn content)
    (targetOrdinary : ∀ unit ∈ target.text, isOrdinary unit = true)
    (notReserved : target.isReserved = false) {text : Text} (nonempty : text ≠ [])
    (ordinary : ∀ unit ∈ text, isOrdinary unit = true) :
    ∃ previous, (({} : Splitter).run 0 (target.followedBy text content)).closeWord
      (target.followedBy text content).length =
        ((({} : Splitter).run 0 content).closeWord content.length).rewritten
          (.inserting target text notReserved) [] previous := by
  obtain ⟨last, isLast, runs⟩ := run_followedBy wordIn endsIn targetOrdinary nonempty ordinary
  have closed := closeWord_withWordBehind text notReserved wordIn endsIn last
  rw [runs, length_followedBy wordIn, run_eq_run_upTo wordIn.inside]
  cases here : content.drop target.span.stop with
  | nil =>
    have atEnd : target.span.stop = content.length :=
      Nat.le_antisymm wordIn.inside (List.drop_eq_nil_iff.mp here)
    rw [← atEnd]
    exact ⟨_, closed⟩
  | cons unit rest =>
    have ends := endsIn.ends unit rest here
    obtain ⟨stillEnds, sameArrow⟩ := endsWord_of_isOrdinary isLast ends
    have plain : (withWordBehind content target text last).mode = .plain :=
      mode_closeWord.trans endsIn.plain
    have closedStep : (Splitter.rewritten (.inserting target text notReserved) [] (some last)
        ((upTo content target.span.stop).closeWord target.span.stop)).step
          (target.span.stop + (Rewriting.inserting target text notReserved).distance) unit rest =
            (((upTo content target.span.stop).closeWord target.span.stop).step target.span.stop unit
              rest).rewritten (.inserting target text notReserved) [] (some unit) :=
      step_rewritten (Or.inl word_closeWord) (by rwa [previous_closeWord])
    have stepped : (withWordBehind content target text last).step
        (target.span.stop + (text.length + 1)) unit rest =
          ((upTo content target.span.stop).step target.span.stop unit rest).rewritten
            (.inserting target text notReserved) [] (some unit) := by
      rw [← step_closeWord plain stillEnds, closed, ← step_closeWord endsIn.plain ends]
      exact closedStep
    have moving : target.span.stop + 1 ≤ content.length := by
      refine Nat.lt_of_not_le fun beyond => ?_
      rw [List.drop_eq_nil_of_le beyond] at here
      cases here
    rw [run, run, stepped, show target.span.stop + (text.length + 1) + 1 =
      target.span.stop + 1 + (text.length + 1) by omega]
    exact closeWord_run_rewritten (.inserting target text notReserved) (Nat.le_refl _) rest
      moving

/-- The commands of a text after a word has been put behind one of their words. -/
theorem commands?_followedBy {content : Text} {commands : List Command}
    (splits : commands? content = some commands) {target : Word}
    (member : target ∈ commands.flatten)
    (targetOrdinary : ∀ unit ∈ target.text, isOrdinary unit = true)
    (notReserved : target.isReserved = false) {text : Text} (nonempty : text ≠ [])
    (ordinary : ∀ unit ∈ text, isOrdinary unit = true) :
    commands? (target.followedBy text content) =
      some (commands.map (Command.rewrite (.inserting target text notReserved))) := by
  obtain ⟨previous, ends⟩ := closeWord_run_followedBy
    ((words_of_commands? content commands splits).1 target member)
    (endsIn_of_commands? splits member) targetOrdinary notReserved nonempty ordinary
  rw [commands?_of_closeWord_rewritten ends, splits]
  rfl

end SourceLint.Shell
