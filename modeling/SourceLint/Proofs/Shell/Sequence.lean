/-
This file says that a shell text can be split line by line. At a line feed the machine is as at the
start again, but for the commands it has, provided no here-document is under way: the open word and
the open command end there, a comment ends there, and nothing after it asks what stood before. So
the commands of two texts with a line feed between them are those of the first and then those of
the second, moved. A backslash at the end of the first text would take the line feed away.
-/
import SourceLint.Proofs.Shell.Outlook
import SourceLint.Proofs.Shell.Rewriting

namespace SourceLint.Shell

/-! ### Texts without here-documents -/

/-- The machine reads a here-document or the operator before it. -/
def Mode.isOfHereDocument : Mode → Bool
  | .operatorTail | .operatorHyphen | .delimiterGap _ | .delimiter _ _ | .body _ => true
  | _ => false

/-- The machine waits for the unit after a backslash outside of quotes. -/
def Mode.isBehindBackslash (mode : Mode) : Bool := mode == .escaped || mode == .continuation

namespace Splitter

variable {splitter : Splitter} {position : Nat} {unit : CodeUnit} {rest : Text}

@[simp] theorem pending_append (units : Text) :
    (splitter.append units).pending = splitter.pending := rfl

@[simp] theorem pending_openWord : (splitter.openWord position).pending = splitter.pending := by
  rw [openWord]
  split <;> rfl

@[simp] theorem pending_closeWord : (splitter.closeWord position).pending = splitter.pending := by
  rw [closeWord]
  split <;> rfl

@[simp] theorem pending_closeCommand :
    (splitter.closeCommand position).pending = splitter.pending := by
  rw [closeCommand]
  split <;> simp

theorem words_closeCommand_eq_nil : (splitter.closeCommand position).words = [] := by
  rw [closeCommand]
  split <;> rfl

/-- No here-document is being read or still to come, and only a backslash is waited behind. The last
unit is a given one. -/
structure Free (last : Option CodeUnit) (splitter : Splitter) : Prop where
  pending : splitter.pending = []
  mode : splitter.mode.isOfHereDocument = false
  behind : splitter.mode.isBehindBackslash = true → last = some ('\\' : CodeUnit)

theorem free_start : Free none {} := ⟨rfl, rfl, fun isBehind => by cases isBehind⟩

/-- Without a here-document the end of a line ends the command and nothing else. -/
theorem endLine_of_pending (pending : splitter.pending = []) :
    splitter.endLine position = { splitter.closeCommand position with mode := .plain } := by
  simp [endLine, pending]

theorem free_endLine {last : Option CodeUnit} (pending : splitter.pending = []) :
    Free last (splitter.endLine position) := by
  rw [endLine_of_pending pending]
  exact ⟨pending_closeCommand.trans pending, rfl, fun isBehind => by cases isBehind⟩

theorem free_readPlain (pending : splitter.pending = []) (plain : splitter.mode = .plain)
    (single : unit = '<' → rest.head? ≠ some ('<' : CodeUnit)) :
    Free (some unit) (splitter.readPlain position unit rest) := by
  have notSign : (unit = '<' && beginsHereDocument rest) = false := by
    by_cases isSign : unit = '<'
    · rw [beginsHereDocument, beq_false_of_ne (single isSign), Bool.false_and, Bool.and_false]
    · rw [decide_eq_false isSign, Bool.false_and]
  unfold readPlain
  rw [notSign]
  split
  case isTrue isBackslash =>
    rw [isBackslash]
    split
    · exact ⟨by simpa using pending, by simp [plain, Mode.isOfHereDocument], fun _ => rfl⟩
    · split
      · exact ⟨pending, rfl, fun _ => rfl⟩
      · exact ⟨by simpa using pending, rfl, fun _ => rfl⟩
  -- Any other unit leaves the machine within quotes, in a comment or as plain as it was.
  repeat' split
  any_goals exact free_endLine pending
  all_goals
    refine ⟨by simpa using pending, ?_, ?_⟩ <;>
      simp_all [Mode.isOfHereDocument, Mode.isBehindBackslash]

theorem Free.step (free : Free splitter.previous splitter)
    (single : unit = '<' → rest.head? ≠ some ('<' : CodeUnit)) :
    Free (some unit) (splitter.step position unit rest) := by
  obtain ⟨pending, mode, _⟩ := free
  suffices after : Free (some unit) (splitter.read position unit rest) from
    ⟨after.pending, after.mode, after.behind⟩
  rw [read]
  cases isMode : splitter.mode with
  | plain => exact free_readPlain pending isMode single
  | comment =>
    dsimp only
    split
    · exact free_endLine pending
    · exact ⟨pending, mode, by simp [isMode, Mode.isBehindBackslash]⟩
  | singleQuoted | doubleQuoted | escaped | continuation | quotedEscape =>
    dsimp only
    repeat' split
    all_goals
      exact ⟨pending, by simp [isMode, Mode.isOfHereDocument],
        by simp [isMode, Mode.isBehindBackslash]⟩
  | _ => rw [isMode] at mode; cases mode

theorem Free.run {text : Text} (free : Free splitter.previous splitter)
    (noOperator : ¬ ("<<" : Text) <:+: text) :
    Free (splitter.run position text).previous (splitter.run position text) := by
  induction text generalizing splitter position with
  | nil => exact free
  | cons unit rest inductionHypothesis =>
    refine inductionHypothesis (free.step ?_) fun later => noOperator (later.trans
      (List.suffix_cons _ _).isInfix)
    rintro rfl next
    obtain ⟨more, rfl⟩ := List.head?_eq_some_iff.mp next
    exact noOperator ⟨[], more, rfl⟩

end Splitter

/-! ### The end of the first text -/

/-- Every word is moved to the right. -/
def Rewriting.shifting (distance : Nat) : Rewriting where
  words word := [word.shift distance]
  moving := 0
  distance := distance
  moves _ _ := rfl
  begins word := ⟨word.shift distance, [], rfl, rfl, fun _ => rfl⟩

theorem Command.rewrite_shifting (command : Command) (distance : Nat) :
    command.rewrite (.shifting distance) = command.shift distance :=
  List.flatMap_pure_eq_map _ _

namespace Splitter

variable {splitter : Splitter} {position : Nat}

/-- At a line feed the machine begins again, after the commands that it has. -/
theorem step_lineFeed (free : Free splitter.previous splitter) (notQuoted : splitter.inQuote = false)
    (notBehind : splitter.previous ≠ some ('\\' : CodeUnit)) (rest : Text) :
    splitter.step position 0x0A rest = ({} : Splitter).rewritten (.shifting (position + 1))
      (splitter.closeCommand position).commands (some 0x0A) := by
  have ended : splitter.read position 0x0A rest = splitter.endLine position := by
    have notWaiting : splitter.mode.isBehindBackslash ≠ true := mt free.behind notBehind
    have noDocument := free.mode
    rw [read]
    cases isMode : splitter.mode <;> rw [isMode] at notWaiting noDocument
    case plain => rfl
    case comment => rfl
    case singleQuoted | doubleQuoted | quotedEscape =>
      rw [inQuote, isMode] at notQuoted
      cases notQuoted
    case escaped | continuation => exact absurd rfl notWaiting
    all_goals cases noDocument
  have atRest : (splitter.closeCommand position).word = none := word_closeCommand
  have noWords : (splitter.closeCommand position).words = [] := words_closeCommand_eq_nil
  have pending : (splitter.closeCommand position).pending = [] :=
    pending_closeCommand.trans free.pending
  rw [step, ended, endLine_of_pending free.pending]
  generalize splitter.closeCommand position = closed at atRest noWords pending
  obtain ⟨_, _, _, _, _, _⟩ := closed
  cases atRest
  cases noWords
  cases pending
  rfl

/-- A machine that has read a line feed reads on like one at the start. -/
theorem run_lineFeed (rewriting : Rewriting) (everything : rewriting.moving = 0)
    (earlier : List Command) (text : Text) :
    ∃ previous, (({} : Splitter).rewritten rewriting earlier (some 0x0A)).run rewriting.distance
      text = (({} : Splitter).run 0 text).rewritten rewriting earlier previous := by
  cases text with
  | nil => exact ⟨_, rfl⟩
  | cons unit rest =>
    have first : (({} : Splitter).rewritten rewriting earlier (some 0x0A)).step
        (0 + rewriting.distance) unit rest =
          (({} : Splitter).step 0 unit rest).rewritten rewriting earlier (some unit) :=
      step_rewritten (Or.inl rfl) fun _ => rfl
    rw [Nat.zero_add] at first
    rw [run, run, first, Nat.add_comm rewriting.distance]
    exact ⟨_, run_rewritten (everything ▸ Nat.zero_le _) rest⟩

end Splitter

/-- The commands of two texts with a line feed between them are those of the first, and then those
of the second in their new places. If the second has an open quote at its end, the whole has. -/
theorem commands?_append_lineFeed {first : Text} {commands : List Command}
    (splits : commands? first = some commands) (noOperator : ¬ ("<<" : Text) <:+: first)
    (noBackslash : first.getLast? ≠ some ('\\' : CodeUnit)) (second : Text) :
    commands? (first ++ 0x0A :: second) = (commands? second).map fun more =>
      commands ++ more.map fun command => command.shift (first.length + 1) := by
  have reached : Splitter.Reached first (0 + first.length) (({} : Splitter).run 0 first) :=
    (Splitter.reached_start first).run rfl
  have free : Splitter.Free (({} : Splitter).run 0 first).previous (({} : Splitter).run 0 first) :=
    Splitter.free_start.run noOperator
  have notBehind : (({} : Splitter).run 0 first).previous ≠ some ('\\' : CodeUnit) := by
    rw [reached.previous, Nat.zero_add, List.take_length]
    exact noBackslash
  -- The line feed plays no part in how the first text is read.
  have alone : ({} : Splitter).runTo 0 (0x0A :: second) first = ({} : Splitter).run 0 first := by
    rw [← Splitter.runTo_nil]
    refine Splitter.runTo_congr _ _ (fun unit isLast => ⟨?_, fun _ => ?_, fun _ => rfl⟩)
      fun _ => ⟨by simp; decide, by simp⟩
    · rintro rfl
      exact absurd isLast noBackslash
    · simp; decide
  rw [commands?] at splits
  generalize ({} : Splitter).run 0 first = ended at splits free notBehind alone
  split at splits
  · cases splits
  case isFalse notQuoted =>
  cases splits
  obtain ⟨previous, moved⟩ := Splitter.run_lineFeed (.shifting (first.length + 1)) rfl
    (ended.closeCommand first.length).commands second
  have whole : ({} : Splitter).run 0 (first ++ 0x0A :: second) =
      (({} : Splitter).run 0 second).rewritten (.shifting (first.length + 1))
        (ended.closeCommand first.length).commands previous := by
    rw [Splitter.run_append, alone, Splitter.run, Nat.zero_add,
      Splitter.step_lineFeed free (Bool.eq_false_iff.mpr notQuoted) notBehind]
    exact moved
  have length : (first ++ 0x0A :: second).length = second.length + (first.length + 1) := by
    rw [List.length_append, List.length_cons]
    omega
  have ends : (({} : Splitter).run 0 (first ++ 0x0A :: second)).closeWord
      (first ++ 0x0A :: second).length =
        ((({} : Splitter).run 0 second).closeWord second.length).rewritten
          (.shifting (first.length + 1)) (ended.closeCommand first.length).commands previous := by
    rw [whole, length]
    exact Splitter.closeWord_rewritten (.shifting _) (Or.inr (Nat.zero_le _))
  rw [commands?_of_closeWord_rewritten ends]
  refine congrArg (Option.map · _) (funext fun more => congrArg _ ?_)
  exact List.map_congr_left fun command _ => command.rewrite_shifting _

/-- A quote in a comment does not reach the next line. -/
theorem commands?_append_lineFeed_comment :
    commands? (("do a # it\x27s" : Text) ++ 0x0A :: "b&>c" : Text) =
      some [[⟨"a", ⟨3, 4⟩⟩], [⟨"b&>c", ⟨12, 16⟩⟩]] := by
  have splits : commands? "do a # it\x27s" = some [[⟨"a", ⟨3, 4⟩⟩]] := by decide +kernel
  rw [commands?_append_lineFeed splits (by decide +kernel) (by decide +kernel) "b&>c"]
  decide +kernel

end SourceLint.Shell
