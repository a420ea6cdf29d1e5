/-
This file says in which texts the body of a here-document goes on too far. Of the three signs before
a here-string the first one is passed over, since three follow one another, but from the second one
only two are left, so the word of a here-string is taken for a delimiter. And the lines of a body
are cut at line feeds alone: where each of them ends with a carriage return and a line feed, the
return belongs to the line, and no line is a delimiter. Both times the commands up to the first line
that closes the body are lost, and all commands if there is none.
-/
import SourceLint.Lines
import SourceLint.Proofs.Shell.HereDocument

namespace SourceLint.Shell

open Splitter

/-! ### Commands in their places -/

theorem Command.shift_shift (command : Command) (first second : Nat) :
    (command.shift first).shift second = command.shift (first + second) := by
  rw [shift, shift, shift, List.map_map]
  exact List.map_congr_left fun word _ => word.shift_shift first second

theorem Command.shift_injective (distance : Nat) :
    Function.Injective fun command : Command => command.shift distance := by
  refine List.map_injective_iff.mpr ?_
  rintro ⟨text, start, stop⟩ ⟨otherText, otherStart, otherStop⟩ same
  simp only [Word.shift, Span.shift, Word.mk.injEq, Span.mk.injEq, Nat.add_right_cancel_iff] at same
  obtain ⟨rfl, rfl, rfl⟩ := same
  rfl

/-- A command that is moved behind a text is none of the commands of that text. -/
theorem shift_not_mem_commands? {content other : Text} {commands found : List Command}
    (splits : commands? content = some commands) (finds : commands? other = some found)
    {distance : Nat} (beyond : content.length ≤ distance) {command : Command}
    (member : command ∈ found) : command.shift distance ∉ commands := by
  intro isCommand
  obtain ⟨first, rest, rfl, _⟩ := begins_of_commands? finds command member
  have inText := (words_of_commands? content commands splits).1 (first.shift distance)
    (List.mem_flatten.mpr ⟨_, isCommand, List.mem_cons_self⟩)
  have proper : first.span.start + distance < first.span.stop + distance := inText.proper
  have inside : first.span.stop + distance ≤ content.length := inText.inside
  omega

theorem suffix_of_append_eq {Item : Type} {first second left right : List Item}
    (same : first ++ second = left ++ right) (apart : ∀ item ∈ right, item ∉ first) :
    right <:+ second := by
  rcases List.suffix_or_suffix_of_suffix ⟨left, same.symm⟩ (List.suffix_append first second) with
    isSuffix | ⟨more, rfl⟩
  · exact isSuffix
  · rw [← List.append_assoc, List.append_cancel_right_eq] at same
    cases more with
    | nil => exact List.suffix_refl second
    | cons item others =>
      refine absurd ?_ (apart item List.mem_cons_self)
      rw [same]
      exact List.mem_append_right left List.mem_cons_self

/-! ### Here-strings -/

/-- A text whose last command has a word for its input. -/
def withHereString (before word : Text) : Text := before ++ ((" <<< " : Text) ++ (word ++ [0x0A]))

/-- The machine behind a text and a sign that begins no operator. -/
def Splitter.behindSign (before : Text) : Splitter :=
  { ((({} : Splitter).run 0 before).openWord before.length).append [('<' : CodeUnit)] with
    previous := some ('<' : CodeUnit) }

theorem Splitter.settled_behindSign {before : Text} (quiet : ∀ unit ∈ before, unit ∉ opening) :
    (behindSign before).Settled := by
  have settled : (({} : Splitter).run 0 before).Settled := settled_start.run quiet
  exact ⟨mode_openWord.trans settled.plain, pending_openWord.trans settled.pending⟩

theorem commands?_append_sign {before rest : Text} (quiet : ∀ unit ∈ before, unit ∉ opening)
    (alone : beginsHereDocument rest = false) :
    commands? (before ++ ('<' : CodeUnit) :: rest) =
      (behindSign before).commandsFrom? (before.length + 1) rest := by
  have grows : (({} : Splitter).run 0 before).step before.length '<' rest = behindSign before := by
    rw [step_of_plain (settled_start.run quiet).plain]
    unfold readPlain
    rw [alone]
    rfl
  have noArrow : (('<' : CodeUnit) :: rest).head? ≠ some ('>' : CodeUnit) :=
    mt Option.some.inj (by decide)
  rw [commands?_append_of_quiet quiet noArrow, commandsFrom?_cons, grows]

theorem commands?_lastSign {before : Text} (quiet : ∀ unit ∈ before, unit ∉ opening) :
    commands? (before ++ [('<' : CodeUnit)]) =
      some ((behindSign before).closeCommand (before.length + 1)).commands.reverse := by
  rw [commands?_append_sign quiet rfl, commandsFrom?_nil, result?, inQuote,
    (settled_behindSign quiet).plain]
  rfl

/-- A word behind a blank, as the delimiter of a here-document. -/
def Announcement.spaced (word : Text) (nonempty : word ≠ [])
    (ordinary : ∀ unit ∈ word, isOrdinary unit = true)
    (notHyphen : word.head? ≠ some ('-' : CodeUnit)) : Announcement where
  document := ⟨word, false⟩
  quoting := .outside
  gap := [0x20]
  behind := []
  nonempty := nonempty
  ordinary := ordinary
  notHyphen := notHyphen
  gap_blank := by decide
  behind_blank := by decide

theorem Announcement.text_spaced {word : Text} {nonempty : word ≠ []}
    {ordinary : ∀ unit ∈ word, isOrdinary unit = true}
    {notHyphen : word.head? ≠ some ('-' : CodeUnit)} :
    (spaced word nonempty ordinary notHyphen).text = ("<< " : Text) ++ word := by
  have same : (spaced word nonempty ordinary notHyphen).text =
      ("<< " : Text) ++ ((word ++ []) ++ []) := rfl
  rw [same, List.append_nil, List.append_nil]

/-- The word of a here-string is the delimiter of a document that the two last signs announce. -/
theorem commands?_withHereString {before word : Text}
    (quiet : ∀ unit ∈ before, unit ∉ opening) (nonempty : word ≠ [])
    (ordinary : ∀ unit ∈ word, isOrdinary unit = true)
    (notHyphen : word.head? ≠ some ('-' : CodeUnit)) (rest : Text) :
    ∃ commands, commands? (before ++ (" <" : Text)) = some commands ∧
      commands? (withHereString before word ++ rest) =
        (commands? (HereDocument.behind ⟨word, false⟩ rest)).map fun more =>
          commands ++ more.map fun command => command.shift ((withHereString before word).length +
            (rest.length - (HereDocument.behind ⟨word, false⟩ rest).length)) := by
  have quietBlank : ∀ unit ∈ before ++ [0x20], unit ∉ opening :=
    List.forall_mem_append.mpr ⟨quiet, by decide⟩
  have alone := commands?_lastSign quietBlank
  rw [List.append_assoc] at alone
  have text : [Announcement.spaced word nonempty ordinary notHyphen].flatMap Announcement.text =
      ("<< " : Text) ++ word := by
    rw [List.flatMap_singleton, Announcement.text_spaced]
  have whole : withHereString before word ++ rest = (before ++ [0x20]) ++
      ('<' : CodeUnit) :: ([Announcement.spaced word nonempty ordinary notHyphen].flatMap
        Announcement.text ++ 0x0A :: rest) := by
    rw [text, withHereString]
    simp only [List.append_assoc, List.singleton_append]
    rfl
  have length : (before ++ [0x20]).length + 1 + ((("<< " : Text) ++ word).length + 1) =
      (withHereString before word).length := by
    have signs : ("<< " : Text).length = 3 ∧ (" <<< " : Text).length = 5 := by decide
    simp only [withHereString, List.length_append, List.length_singleton, signs]
    omega
  refine ⟨_, alone, ?_⟩
  rw [whole, commands?_append_sign quietBlank (by rw [text]; rfl),
    commandsFrom?_announced (settled_behindSign quietBlank), text, length]
  rfl

/-- The commands of a text with a here-string are those of the text up to its first sign, and then
those of the lines behind the first line that is its word, in their new places. So they end with the
commands of the text behind the here-string exactly if these are the last ones of those lines. -/
theorem commands?_hereString {before word : Text} (quiet : ∀ unit ∈ before, unit ∉ opening)
    (nonempty : word ≠ []) (ordinary : ∀ unit ∈ word, isOrdinary unit = true)
    (notHyphen : word.head? ≠ some ('-' : CodeUnit)) (rest : Text) :
    (∃ commands, commands? (before ++ (" <" : Text)) = some commands ∧
      commands? (withHereString before word ++ rest) =
        (commands? (HereDocument.behind ⟨word, false⟩ rest)).map fun more =>
          commands ++ more.map fun command => command.shift ((withHereString before word).length +
            (rest.length - (HereDocument.behind ⟨word, false⟩ rest).length))) ∧
    ∀ found, commands? rest = some found →
      ((∃ earlier, commands? (withHereString before word ++ rest) = some (earlier ++
          found.map fun command => command.shift (withHereString before word).length)) ↔
        ∃ more, commands? (HereDocument.behind ⟨word, false⟩ rest) = some more ∧
          found <:+ more.map fun command =>
            command.shift (rest.length - (HereDocument.behind ⟨word, false⟩ rest).length)) := by
  obtain ⟨commands, splits, reads⟩ :=
    commands?_withHereString quiet nonempty ordinary notHyphen rest
  refine ⟨⟨commands, splits, reads⟩, fun found finds => ?_⟩
  rw [reads]
  generalize rest.length - (HereDocument.behind ⟨word, false⟩ rest).length = skipped
  have beyond : (before ++ (" <" : Text)).length ≤ (withHereString before word).length := by
    have signs : (" <" : Text).length = 2 ∧ (" <<< " : Text).length = 5 := by decide
    simp only [withHereString, List.length_append, signs]
    omega
  generalize (withHereString before word).length = distance at beyond ⊢
  -- The commands behind the body are moved twice, first to their places in the rest.
  have twice (more : List Command) :
      (more.map fun command => command.shift (distance + skipped)) =
        (more.map fun command => command.shift skipped).map
          fun command => command.shift distance := by
    rw [List.map_map]
    refine List.map_congr_left fun command _ => ?_
    rw [Function.comp_apply, command.shift_shift, Nat.add_comm]
  constructor
  · rintro ⟨earlier, isResult⟩
    obtain ⟨more, behind, same⟩ := Option.map_eq_some_iff.mp isResult
    refine ⟨more, behind, ?_⟩
    rw [twice] at same
    have isSuffix := suffix_of_append_eq same <| List.forall_mem_map.mpr fun command member =>
      shift_not_mem_commands? splits finds beyond member
    obtain ⟨last, isLast, sameLast⟩ := List.suffix_map_iff.mp isSuffix
    rwa [List.map_injective_iff.mpr (Command.shift_injective distance) sameLast]
  · rintro ⟨more, behind, skippedOver, isLast⟩
    refine ⟨commands ++ skippedOver.map fun command => command.shift distance, ?_⟩
    rw [behind, Option.map_some, twice, ← isLast, List.map_append, List.append_assoc]

/-- The command behind a here-string is lost, since no line behind it is its word. -/
theorem commands?_lostCommand :
    commands? "ls\n" = some [[⟨"ls", ⟨0, 2⟩⟩]] ∧
      ∀ earlier, commands? (withHereString "cat" "x" ++ ("ls\n" : Text)) ≠
        some (earlier ++ [Command.shift [⟨"ls", ⟨0, 2⟩⟩] (withHereString "cat" "x").length]) := by
  have whole : commands? (withHereString "cat" "x" ++ ("ls\n" : Text)) =
      some [[⟨"cat", ⟨0, 3⟩⟩, ⟨"<", ⟨4, 5⟩⟩]] := by decide +kernel
  refine ⟨by decide +kernel, fun earlier same => ?_⟩
  have last := congrArg List.getLast? (Option.some.inj (whole.symm.trans same))
  rw [List.getLast?_concat] at last
  revert last
  decide +kernel

/-- A line that is the word of the here-string ends the body, so a later command is found. -/
theorem commands?_hereString_laterCommand :
    commands? (withHereString "a" "x" ++ ("b\nx\nc" : Text)) =
        some [[⟨"a", ⟨0, 1⟩⟩, ⟨"<", ⟨2, 3⟩⟩], [⟨"c", ⟨12, 13⟩⟩]] ∧
      ¬∃ earlier, commands? (withHereString "a" "x" ++ ("b\nx\nc" : Text)) = some (earlier ++
        [[⟨"b", ⟨8, 9⟩⟩], [⟨"x", ⟨10, 11⟩⟩], [⟨"c", ⟨12, 13⟩⟩]]) := by
  have quiet : ∀ unit ∈ ("a" : Text), unit ∉ opening := by decide
  have ordinary : ∀ unit ∈ ("x" : Text), isOrdinary unit = true := by decide
  obtain ⟨⟨commands, splits, reads⟩, exactly⟩ :=
    commands?_hereString quiet (by decide) ordinary (by decide) "b\nx\nc"
  have first : commands? (("a" : Text) ++ (" <" : Text)) =
      some [[⟨"a", ⟨0, 1⟩⟩, ⟨"<", ⟨2, 3⟩⟩]] := by decide +kernel
  have finds : commands? "b\nx\nc" =
      some [[⟨"b", ⟨0, 1⟩⟩], [⟨"x", ⟨2, 3⟩⟩], [⟨"c", ⟨4, 5⟩⟩]] := by decide +kernel
  cases first.symm.trans splits
  refine ⟨reads.trans (by decide +kernel), fun ends => ?_⟩
  obtain ⟨more, behind, isSuffix⟩ := (exactly _ finds).mp ends
  have isMore : commands? (HereDocument.behind ⟨"x", false⟩ "b\nx\nc") =
      some [[⟨"c", ⟨0, 1⟩⟩]] := by decide +kernel
  cases isMore.symm.trans behind
  exact absurd isSuffix.length_le (by decide)

/-! ### Line endings -/

namespace HereDocument

variable {document : HereDocument} {line closing : Text} {lines further : List Text}

/-- A line that closes a body has no units but those of the delimiter and tabs. -/
theorem mem_delimiter_of_isClosedBy (closed : Splitter.HereDocument.isClosedBy document line = true)
    {unit : CodeUnit} (member : unit ∈ line) (notTab : unit ≠ 0x09) :
    unit ∈ document.delimiter := by
  rw [Splitter.HereDocument.isClosedBy, beq_iff_eq] at closed
  rw [← closed]
  split
  · rw [← List.takeWhile_append_dropWhile (p := (· == 0x09)) (l := line)] at member
    refine (List.mem_append.mp member).resolve_left fun isTab => notTab ?_
    have passes := List.mem_takeWhile_imp isTab
    exact beq_iff_eq.mp passes
  · exact member

/-- Behind the line that closes a body stand the further lines. -/
theorem behind_join (areLines : ∀ line ∈ lines ++ closing :: further, 0x0A ∉ line)
    (notClosed : ∀ line ∈ lines, Splitter.HereDocument.isClosedBy document line = false)
    (closed : Splitter.HereDocument.isClosedBy document closing = true) :
    document.behind (Text.join [0x0A] (lines ++ closing :: further)) =
      Text.join [0x0A] further := by
  rw [behind, Text.splitAt_join (by simp) areLines, List.dropWhile_append_of_pos,
    List.dropWhile_cons_of_neg (by simp [closed]), List.tail_cons]
  exact fun line member => by rw [notClosed line member]; rfl

/-- A line that ends with a carriage return closes no body, so only the last line might. -/
theorem behind_join_returns (noReturn : 0x0D ∉ document.delimiter)
    (areLines : ∀ line ∈ lines, 0x0A ∉ line) :
    document.behind (Text.join [0x0D, 0x0A] lines) = [] := by
  fun_induction Text.join [0x0D, 0x0A] lines with
  | case1 => exact behind_of_not_mem List.not_mem_nil
  | case2 line => exact behind_of_not_mem (areLines line List.mem_cons_self)
  | case3 line rest notLast inductionHypothesis =>
    obtain ⟨isLine, areLines⟩ := List.forall_mem_cons.mp areLines
    have returned : line ++ [0x0D, 0x0A] ++ Text.join [0x0D, 0x0A] rest =
        (line ++ [0x0D]) ++ 0x0A :: Text.join [0x0D, 0x0A] rest := by simp
    have isReturned : 0x0A ∉ line ++ [0x0D] := by
      rw [List.mem_append, not_or]
      exact ⟨isLine, by decide⟩
    rw [returned, behind_append_cons isReturned, if_neg, inductionHypothesis areLines]
    intro closed
    exact noReturn (mem_delimiter_of_isClosedBy closed
      (List.mem_append_right line List.mem_cons_self) (by decide))

end HereDocument

/-- An announcement with a carriage return behind it. -/
def Announcement.returned (announcement : Announcement) : Announcement :=
  { announcement with
    behind := announcement.behind ++ [0x0D]
    behind_blank := List.forall_mem_append.mpr ⟨announcement.behind_blank, by decide⟩ }

theorem Announcement.text_returned (announcement : Announcement) :
    announcement.returned.text = announcement.text ++ [0x0D] := by
  have sameOperator : announcement.returned.operator = announcement.operator := rfl
  have sameWord : announcement.returned.word = announcement.word := rfl
  rw [text, text, sameOperator, sameWord, List.append_assoc, List.append_assoc, List.append_assoc]
  rfl

/-- A text with a here-document and further lines behind its body, with one ending for all lines. -/
def WrittenDocument.script (written : WrittenDocument) (before : Text) (further : List Text)
    (newline : Newline) : Text :=
  Text.join newline.text
    ((before ++ written.announcement.text) :: (written.lines ++ written.closing :: further))

/-- The texts of the words of a command. -/
def Command.texts (command : Command) : List Text := command.map Word.text

variable {before : Text} {further : List Text}

theorem WrittenDocument.commands?_script_crlf (quiet : ∀ unit ∈ before, unit ∉ opening)
    (written : WrittenDocument) (areLines : ∀ line ∈ further, 0x0A ∉ line) :
    commands? (written.script before further .crlf) = commands? before := by
  obtain ⟨commands, splits, reads⟩ := commands?_announced quiet [written.announcement.returned]
    (Text.join [0x0D, 0x0A] (written.lines ++ written.closing :: further))
  have noReturn : 0x0D ∉ written.announcement.document.delimiter := fun member =>
    absurd (written.announcement.ordinary _ member) (by decide)
  have noCommand : HereDocument.behindAll
      ([written.announcement.returned].map Announcement.document)
      (Text.join [0x0D, 0x0A] (written.lines ++ written.closing :: further)) = [] :=
    HereDocument.behind_join_returns noReturn <| List.forall_mem_append.mpr
      ⟨written.areLines, List.forall_mem_cons.mpr ⟨written.feed_not_mem_closing, areLines⟩⟩
  have whole : written.script before further .crlf = before ++
      ([written.announcement.returned].flatMap Announcement.text ++
        0x0A :: Text.join [0x0D, 0x0A] (written.lines ++ written.closing :: further)) := by
    rw [script, Text.join_cons (by simp), List.flatMap_singleton, Announcement.text_returned]
    simp [Newline.text]
  have nothing : commands? [] = some [] := rfl
  rw [whole, reads, noCommand, splits, nothing, Option.map_some, List.map_nil, List.append_nil]

theorem WrittenDocument.commands?_script_lf (quiet : ∀ unit ∈ before, unit ∉ opening)
    (written : WrittenDocument) (areLines : ∀ line ∈ further, 0x0A ∉ line) :
    ∃ commands, commands? before = some commands ∧
      commands? (written.script before further .lf) =
        (commands? (Text.join [0x0A] further)).map fun more => commands ++ more.map fun command =>
          command.shift
            ((written.script before further .lf).length - (Text.join [0x0A] further).length) := by
  obtain ⟨commands, splits, reads⟩ := commands?_announced quiet [written.announcement]
    (Text.join [0x0A] (written.lines ++ written.closing :: further))
  have behind : HereDocument.behindAll ([written.announcement].map Announcement.document)
      (Text.join [0x0A] (written.lines ++ written.closing :: further)) = Text.join [0x0A] further :=
    HereDocument.behind_join (List.forall_mem_append.mpr
      ⟨written.areLines, List.forall_mem_cons.mpr ⟨written.feed_not_mem_closing, areLines⟩⟩)
      written.notClosed written.isClosedBy_closing
  have whole : written.script before further .lf = before ++
      ([written.announcement].flatMap Announcement.text ++
        0x0A :: Text.join [0x0A] (written.lines ++ written.closing :: further)) := by
    rw [script, Newline.text, Text.join_cons (by simp), List.flatMap_singleton, List.append_assoc,
      List.singleton_append]
  have shorter := HereDocument.length_behindAll_le
    ([written.announcement].map Announcement.document)
    (Text.join [0x0A] (written.lines ++ written.closing :: further))
  rw [behind] at shorter reads
  refine ⟨commands, splits, ?_⟩
  have distance : before.length + (([written.announcement].flatMap Announcement.text).length + 1) +
      ((Text.join [0x0A] (written.lines ++ written.closing :: further)).length -
        (Text.join [0x0A] further).length) =
      (written.script before further .lf).length - (Text.join [0x0A] further).length := by
    rw [whole, List.length_append, List.length_append, List.length_cons]
    omega
  rw [← distance, whole, reads]

/-- In a script where each line ends with a carriage return and a line feed, the commands are those
before the here-document alone; where each ends with a line feed, those of the further lines follow
them in their new places. So both scripts have the same commands, up to the places, exactly if the
further lines have none. -/
theorem commands?_script (quiet : ∀ unit ∈ before, unit ∉ opening)
    (written : WrittenDocument) (areLines : ∀ line ∈ further, 0x0A ∉ line) :
    ∃ commands, commands? before = some commands ∧
      commands? (written.script before further .crlf) = some commands ∧
      commands? (written.script before further .lf) =
        ((commands? (Text.join [0x0A] further)).map fun more =>
          commands ++ more.map fun command => command.shift
            ((written.script before further .lf).length - (Text.join [0x0A] further).length)) ∧
      ((commands? (written.script before further .crlf)).map (List.map Command.texts) =
          (commands? (written.script before further .lf)).map (List.map Command.texts) ↔
        commands? (Text.join [0x0A] further) = some []) := by
  obtain ⟨commands, splits, reads⟩ := written.commands?_script_lf quiet areLines
  have alone := (written.commands?_script_crlf quiet areLines).trans splits
  refine ⟨commands, splits, alone, reads, ?_⟩
  rw [alone, reads]
  cases commands? (Text.join [0x0A] further) with
  | none => simp
  | some more =>
    rw [Option.map_some, Option.map_some, Option.map_some, Option.some_inj, Option.some_inj,
      List.map_append, List.self_eq_append_right, List.map_eq_nil_iff, List.map_eq_nil_iff]

/-- A document with a bare delimiter, in whose body a quote is open. -/
def quotedNote : WrittenDocument where
  announcement := .ofWord "E" false .outside (by decide) (by decide)
  lines := ["it\x27s"]
  indentation := 0
  areLines := by decide
  notClosed := by decide

/-- The command behind the body is lost where each line ends with a carriage return, too. -/
theorem commands?_script_returns :
    quotedNote.script "cat" ["ls"] .crlf = Text.ofString "cat<<E\r\nit\x27s\r\nE\r\nls" ∧
      commands? (quotedNote.script "cat" ["ls"] .crlf) = some [[⟨"cat", ⟨0, 3⟩⟩]] ∧
      commands? (quotedNote.script "cat" ["ls"] .lf) =
        some [[⟨"cat", ⟨0, 3⟩⟩], [⟨"ls", ⟨14, 16⟩⟩]] ∧
      (commands? (quotedNote.script "cat" ["ls"] .crlf)).map (List.map Command.texts) ≠
        (commands? (quotedNote.script "cat" ["ls"] .lf)).map (List.map Command.texts) := by
  have quiet : ∀ unit ∈ ("cat" : Text), unit ∉ opening := by decide
  have areLines : ∀ line ∈ ["ls"].map Text.ofString, 0x0A ∉ line := by decide
  obtain ⟨commands, splits, returns, feeds, same⟩ := commands?_script quiet quotedNote areLines
  have first : commands? "cat" = some [[⟨"cat", ⟨0, 3⟩⟩]] := by decide +kernel
  cases first.symm.trans splits
  refine ⟨by decide +kernel, returns, feeds.trans (by decide +kernel), mt same.mp ?_⟩
  decide +kernel

/-- No line of the body is the delimiter alone, so the command behind it is lost. -/
theorem commands?_notClosed :
    commands? "cat <<E\r\nx\r\nE\r\nls\r\n" = some [[⟨"cat", ⟨0, 3⟩⟩]] ∧
      commands? "cat <<E\nx\nE\nls\n" = some [[⟨"cat", ⟨0, 3⟩⟩], [⟨"ls", ⟨12, 14⟩⟩]] ∧
      (commands? "cat <<E\r\nx\r\nE\r\nls\r\n").map (List.map Command.texts) ≠
        (commands? "cat <<E\nx\nE\nls\n").map (List.map Command.texts) := by
  decide +kernel

end SourceLint.Shell
