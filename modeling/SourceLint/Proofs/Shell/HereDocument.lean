/-
This file says that the bodies of here-documents play no part in the splitting of a shell text. The
documents that a line announces are taken up one after the other behind its line feed, each up to
the first line that closes it, and behind the last body the machine is as at the start again, after
the commands that it has. No unit of a body is read as anything else, so a quote in a body is open
for nobody.
-/
import SourceLint.Proofs.Shell.Announcement

namespace SourceLint.Shell

/-! ### Where a body ends -/

namespace HereDocument

/-- What stands behind the body of a here-document: the lines behind the first one that closes it.
Without such a line the body goes on to the end of the text. -/
def behind (document : HereDocument) (text : Text) : Text :=
  Text.join [0x0A] ((Text.splitAt 0x0A text).dropWhile fun line =>
    !Splitter.HereDocument.isClosedBy document line).tail

/-- What stands behind the bodies of here-documents that follow one another. -/
def behindAll (documents : List HereDocument) (text : Text) : Text :=
  documents.foldl (fun text document => document.behind text) text

variable {document : HereDocument} {line : Text}

theorem behind_of_not_mem (isLast : 0x0A ∉ line) : document.behind line = [] := by
  rw [behind, Text.splitAt_of_not_mem isLast, List.dropWhile_cons]
  split <;> rfl

theorem behind_append_cons (isLine : 0x0A ∉ line) (rest : Text) :
    document.behind (line ++ 0x0A :: rest) =
      if Splitter.HereDocument.isClosedBy document line then rest else document.behind rest := by
  rw [behind, Text.splitAt_append_cons rest isLine, List.dropWhile_cons]
  cases Splitter.HereDocument.isClosedBy document line with
  | true => exact Text.join_splitAt 0x0A rest
  | false => rfl

/-- A body is passed over with the line that closes it. -/
theorem behind_lines {lines : List Text} {closing : Text} (areLines : ∀ line ∈ lines, 0x0A ∉ line)
    (notClosed : ∀ line ∈ lines, Splitter.HereDocument.isClosedBy document line = false)
    (isLine : 0x0A ∉ closing) (closed : Splitter.HereDocument.isClosedBy document closing = true)
    (rest : Text) :
    document.behind ((lines ++ [closing]).flatMap (fun line => line ++ [0x0A]) ++ rest) = rest := by
  induction lines with
  | nil =>
    rw [List.nil_append, List.flatMap_singleton, List.append_assoc]
    exact (behind_append_cons isLine rest).trans (if_pos closed)
  | cons line lines inductionHypothesis =>
    obtain ⟨isFirst, areLines⟩ := List.forall_mem_cons.mp areLines
    obtain ⟨firstOpen, notClosed⟩ := List.forall_mem_cons.mp notClosed
    rw [List.cons_append, List.flatMap_cons, List.append_assoc, List.append_assoc,
      List.singleton_append, behind_append_cons isFirst, firstOpen, if_neg Bool.false_ne_true]
    exact inductionHypothesis areLines notClosed

theorem length_behind_le (document : HereDocument) (text : Text) :
    (document.behind text).length ≤ text.length := by
  induction text using Text.inductionOnParts 0x0A with
  | last line isLast => simp [behind_of_not_mem isLast]
  | more line rest isLine inductionHypothesis =>
    rw [behind_append_cons isLine, List.length_append, List.length_cons]
    split <;> omega

theorem length_behindAll_le (documents : List HereDocument) (text : Text) :
    (behindAll documents text).length ≤ text.length := by
  induction documents generalizing text with
  | nil => exact Nat.le_refl _
  | cons document others inductionHypothesis =>
    exact (inductionHypothesis _).trans (document.length_behind_le text)

end HereDocument

namespace Splitter

variable {splitter : Splitter} {position : Nat} {earlier : List Command}
  {document : HereDocument} {others : List HereDocument}

/-! ### Reading bodies -/

/-- A machine in a line of a body, of which it has read a part. -/
def inBody (earlier : List Command) (pending : List HereDocument) (read : Text)
    (previous : Option CodeUnit) : Splitter :=
  { mode := .body read, previous := previous, commands := earlier, pending := pending }

/-- A machine at the start of a line, with the here-documents whose bodies come next. -/
def atLine (earlier : List Command) : List HereDocument → Splitter
  | [] => { previous := some 0x0A, commands := earlier }
  | document :: others => inBody earlier (document :: others) [] (some 0x0A)

/-- A line of a body counts as a whole. -/
theorem commandsFrom?_bodyLine {line : Text} (isLine : 0x0A ∉ line) (read : Text)
    (previous : Option CodeUnit) (rest : Text) :
    (inBody earlier (document :: others) read previous).commandsFrom? position
        (line ++ 0x0A :: rest) =
      (atLine earlier (if HereDocument.isClosedBy document (read ++ line) then others
        else document :: others)).commandsFrom? (position + (line.length + 1)) rest := by
  induction line generalizing read previous position with
  | nil =>
    have ends : (inBody earlier (document :: others) read previous).step position 0x0A rest =
        atLine earlier (if HereDocument.isClosedBy document read then others
          else document :: others) := by
      cases others <;>
        cases closed : HereDocument.isClosedBy document read <;>
          simp [step, Splitter.read, inBody, endBodyLine, closed, atLine]
    rw [List.nil_append, commandsFrom?_cons, ends, List.append_nil]
    rfl
  | cons unit line inductionHypothesis =>
    obtain ⟨notFeed, isLine⟩ := not_or.mp (List.mem_cons.not.mp isLine)
    have grows : (inBody earlier (document :: others) read previous).step position unit
        (line ++ 0x0A :: rest) =
          inBody earlier (document :: others) (read ++ [unit]) (some unit) := by
      simp [step, Splitter.read, inBody, Ne.symm notFeed]
    rw [List.cons_append, commandsFrom?_cons, grows, inductionHypothesis isLine,
      List.append_assoc, List.length_cons, Nat.add_assoc, Nat.add_comm 1]
    rfl

/-- A body that goes on to the end of the text holds no command. -/
theorem commandsFrom?_lastLine {line : Text} (isLast : 0x0A ∉ line) (read : Text)
    (previous : Option CodeUnit) :
    (inBody earlier (document :: others) read previous).commandsFrom? position line =
      some earlier.reverse := by
  induction line generalizing read previous position with
  | nil => rfl
  | cons unit line inductionHypothesis =>
    obtain ⟨notFeed, isLast⟩ := not_or.mp (List.mem_cons.not.mp isLast)
    have grows : (inBody earlier (document :: others) read previous).step position unit line =
        inBody earlier (document :: others) (read ++ [unit]) (some unit) := by
      simp [step, Splitter.read, inBody, Ne.symm notFeed]
    rw [commandsFrom?_cons, grows, inductionHypothesis isLast]

theorem commandsFrom?_atLine_nil (earlier : List Command) (pending : List HereDocument)
    (position : Nat) :
    (atLine earlier pending).commandsFrom? position [] = some earlier.reverse := by
  cases pending <;> rfl

theorem commandsFrom?_body (text : Text) :
    (atLine earlier (document :: others)).commandsFrom? position text =
      (atLine earlier others).commandsFrom?
        (position + (text.length - (document.behind text).length)) (document.behind text) := by
  induction text using Text.inductionOnParts 0x0A generalizing position with
  | last line isLast =>
    rw [HereDocument.behind_of_not_mem isLast, commandsFrom?_atLine_nil]
    exact commandsFrom?_lastLine isLast [] _
  | more line rest isLine inductionHypothesis =>
    have shorter := document.length_behind_le rest
    refine (commandsFrom?_bodyLine isLine [] (some 0x0A) rest).trans ?_
    rw [HereDocument.behind_append_cons isLine, List.length_append, List.length_cons,
      List.nil_append]
    cases HereDocument.isClosedBy document line with
    | true =>
      rw [if_pos rfl, if_pos rfl]
      congr 1
      omega
    | false =>
      rw [if_neg Bool.false_ne_true, if_neg Bool.false_ne_true, inductionHypothesis]
      congr 1
      omega

/-- Behind the bodies the machine begins again, after the commands that it has. -/
theorem commandsFrom?_bodies (documents : List HereDocument) (text : Text) :
    (atLine earlier documents).commandsFrom? position text =
      (commands? (HereDocument.behindAll documents text)).map fun more =>
        earlier.reverse ++ more.map fun command => command.shift
          (position + (text.length - (HereDocument.behindAll documents text).length)) := by
  induction documents generalizing position text with
  | nil =>
    rw [HereDocument.behindAll, List.foldl_nil, Nat.sub_self]
    exact commandsFrom?_again earlier position text
  | cons document others inductionHypothesis =>
    have first := document.length_behind_le text
    have more := HereDocument.length_behindAll_le others (document.behind text)
    have same : HereDocument.behindAll (document :: others) text =
        HereDocument.behindAll others (document.behind text) := rfl
    rw [commandsFrom?_body, inductionHypothesis, same, Nat.add_assoc,
      Nat.sub_add_sub_cancel first more]

/-! ### Reading a line that announces bodies -/

theorem closeCommand_awaiting (document : HereDocument) :
    (splitter.awaiting document).closeCommand position =
      (splitter.closeCommand position).awaiting document := by
  have closes : (splitter.awaiting document).closeWord position =
      (splitter.closeWord position).awaiting document := by
    obtain ⟨_, _, _, _, word, _⟩ := splitter
    cases word <;> rfl
  rw [closeCommand, closeCommand, closes]
  generalize splitter.closeWord position = closed
  have sameWords : (closed.awaiting document).words = closed.words := rfl
  rw [sameWords]
  cases Command.dropReserved closed.words.reverse <;> rfl

/-- The end of a line ends the command and begins the bodies. -/
theorem commandsFrom?_lineFeed (plain : splitter.mode = .plain) (rest : Text) :
    splitter.commandsFrom? position (0x0A :: rest) =
      (atLine (splitter.closeCommand position).commands splitter.pending).commandsFrom?
        (position + 1) rest := by
  have noWord : (splitter.closeCommand position).word = none := word_closeCommand
  have noWords : (splitter.closeCommand position).words = [] := words_closeCommand_eq_nil
  have pending : (splitter.closeCommand position).pending = splitter.pending := pending_closeCommand
  have notAmpersand : ((0x0A : CodeUnit) = '&' && isRedirection splitter.previous rest) = false :=
    Bool.false_and _
  have ends : splitter.step position 0x0A rest =
      atLine (splitter.closeCommand position).commands splitter.pending := by
    rw [step_of_plain plain, readPlain_of_quiet (by decide), notAmpersand,
      if_neg Bool.false_ne_true, if_pos rfl, endLine, ← pending]
    generalize splitter.closeCommand position = closed at noWord noWords
    obtain ⟨_, _, _, _, _, pending⟩ := closed
    cases noWord
    cases noWords
    cases pending <;> rfl
  rw [commandsFrom?_cons, ends]

/-- Announcements and the line feed behind them begin with a sign or with the line feed. -/
theorem exists_announcements_eq_cons (announcements : List Announcement) (rest : Text) :
    ∃ unit more, announcements.flatMap Announcement.text ++ 0x0A :: rest = unit :: more ∧
      endsDelimiter unit = true ∧ unit ≠ '&' ∧ unit ≠ '>' := by
  cases announcements with
  | nil => exact ⟨_, _, rfl, by decide, by decide, by decide⟩
  | cons other others =>
    rw [List.flatMap_cons, Announcement.text, Announcement.operator]
    cases other.document.stripsTabs <;> exact ⟨_, _, rfl, by decide, by decide, by decide⟩

theorem commandsFrom?_announcements (plain : splitter.mode = .plain)
    (announcements : List Announcement) (rest : Text) :
    splitter.commandsFrom? position (announcements.flatMap Announcement.text ++ 0x0A :: rest) =
      (atLine (splitter.closeCommand position).commands
        (splitter.pending ++ announcements.map Announcement.document)).commandsFrom?
          (position + ((announcements.flatMap Announcement.text).length + 1)) rest := by
  induction announcements generalizing splitter position with
  | nil =>
    rw [List.flatMap_nil, List.map_nil, List.append_nil]
    exact commandsFrom?_lineFeed plain rest
  | cons announcement announcements inductionHypothesis =>
    obtain ⟨unit, more, isNext, ends, notAmpersand, _⟩ :=
      exists_announcements_eq_cons announcements rest
    have stillPlain : ((splitter.closeWord position).awaiting announcement.document).mode =
        .plain := mode_closeWord.trans plain
    have pending : ((splitter.closeWord position).awaiting announcement.document).pending =
        splitter.pending ++ [announcement.document] := by
      rw [awaiting, pending_closeWord]
    rw [List.flatMap_cons, List.append_assoc, isNext,
      commandsFrom?_announcement announcement plain ends notAmpersand, ← isNext,
      inductionHypothesis stillPlain, closeCommand_awaiting, closeCommand_closeWord, pending,
      List.append_assoc, List.length_append, Nat.add_assoc, Nat.add_assoc]
    rfl

theorem commandsFrom?_announced (settled : splitter.Settled) (announcements : List Announcement)
    (rest : Text) :
    splitter.commandsFrom? position (announcements.flatMap Announcement.text ++ 0x0A :: rest) =
      (commands? (HereDocument.behindAll (announcements.map Announcement.document) rest)).map
        fun more => (splitter.closeCommand position).commands.reverse ++
          more.map fun command => command.shift
            (position + ((announcements.flatMap Announcement.text).length + 1) + (rest.length -
              (HereDocument.behindAll (announcements.map Announcement.document) rest).length)) := by
  rw [commandsFrom?_announcements settled.plain, settled.pending, List.nil_append,
    commandsFrom?_bodies]

end Splitter

open Splitter

/-- The commands of a text that announces here-documents at its end, with a further text behind the
line feed: those of the first text, and then those of what stands behind the bodies. -/
theorem commands?_announced {before : Text} (quiet : ∀ unit ∈ before, unit ∉ opening)
    (announcements : List Announcement) (rest : Text) :
    ∃ commands, commands? before = some commands ∧
      commands? (before ++ (announcements.flatMap Announcement.text ++ 0x0A :: rest)) =
        (commands? (HereDocument.behindAll (announcements.map Announcement.document) rest)).map
          fun more => commands ++ more.map fun command => command.shift
            (before.length + ((announcements.flatMap Announcement.text).length + 1) + (rest.length -
              (HereDocument.behindAll (announcements.map Announcement.document) rest).length)) := by
  have noArrow : (announcements.flatMap Announcement.text ++ 0x0A :: rest).head? ≠
      some ('>' : CodeUnit) := by
    obtain ⟨unit, more, isNext, _, _, notArrow⟩ := exists_announcements_eq_cons announcements rest
    rw [isNext]
    exact mt Option.some.inj notArrow
  refine ⟨_, commands?_of_quiet quiet, ?_⟩
  rw [commands?_append_of_quiet quiet noArrow]
  exact commandsFrom?_announced (settled_start.run quiet) announcements rest

/-! ### Written bodies -/

/-- A here-document with its announcement and its body, which its delimiter closes. -/
structure WrittenDocument where
  announcement : Announcement
  /-- The lines of the body. -/
  lines : List Text
  /-- How many tabs stand before the delimiter at the end, if tabs do not count. -/
  indentation : Nat
  areLines : ∀ line ∈ lines, 0x0A ∉ line
  notClosed : ∀ line ∈ lines, HereDocument.isClosedBy announcement.document line = false

namespace WrittenDocument

/-- The line that closes the body. -/
def closing (written : WrittenDocument) : Text :=
  (if written.announcement.document.stripsTabs then List.replicate written.indentation 0x09
    else []) ++ written.announcement.document.delimiter

/-- The text of the body, with a line feed behind each line. -/
def body (written : WrittenDocument) : Text :=
  (written.lines ++ [written.closing]).flatMap fun line => line ++ [0x0A]

theorem isClosedBy_closing (written : WrittenDocument) :
    HereDocument.isClosedBy written.announcement.document written.closing = true := by
  have noTab : written.announcement.document.delimiter.dropWhile (· == 0x09) =
      written.announcement.document.delimiter := by
    obtain ⟨unit, more, isDelimiter⟩ :=
      List.exists_cons_of_ne_nil written.announcement.nonempty
    have ordinary := written.announcement.ordinary unit (isDelimiter ▸ List.mem_cons_self)
    rw [isDelimiter, List.dropWhile_cons_of_neg]
    exact fun isTab => ne_of_isOrdinary ordinary 0x09 (by decide) (beq_iff_eq.mp isTab)
  rw [HereDocument.isClosedBy, closing, beq_iff_eq]
  cases written.announcement.document.stripsTabs with
  | true =>
    rw [if_pos rfl, if_pos rfl, List.dropWhile_append_of_pos, noTab]
    exact fun unit member => beq_iff_eq.mpr (List.eq_of_mem_replicate member)
  | false => rfl

theorem feed_not_mem_closing (written : WrittenDocument) : 0x0A ∉ written.closing := by
  rw [closing, List.mem_append, not_or]
  constructor
  · split
    · exact fun member => absurd (List.eq_of_mem_replicate member) (by decide)
    · exact List.not_mem_nil
  · intro member
    exact absurd (written.announcement.ordinary _ member) (by decide)

theorem behind_body (written : WrittenDocument) (rest : Text) :
    written.announcement.document.behind (written.body ++ rest) = rest :=
  HereDocument.behind_lines written.areLines written.notClosed written.feed_not_mem_closing
    written.isClosedBy_closing rest

/-- Behind written bodies stands what is put there. -/
theorem behindAll_bodies (documents : List WrittenDocument) (rest : Text) :
    HereDocument.behindAll
      ((documents.map WrittenDocument.announcement).map Announcement.document)
      (documents.flatMap body ++ rest) = rest := by
  induction documents with
  | nil => rfl
  | cons written others inductionHypothesis =>
    rw [List.flatMap_cons, List.append_assoc, List.map_cons, List.map_cons, HereDocument.behindAll,
      List.foldl_cons, behind_body]
    exact inductionHypothesis

end WrittenDocument

/-- A text whose last line announces here-documents, with their bodies behind it. -/
def withDocuments (before : Text) (documents : List WrittenDocument) : Text :=
  before ++ ((documents.flatMap fun written => written.announcement.text) ++
    0x0A :: documents.flatMap WrittenDocument.body)

/-- The commands of a text with here-documents are those of the text before them and then those of
the text behind the last body, in their new places, whatever the bodies hold. A quote is open at the
end only if one is open at the end of the text behind the bodies. -/
theorem commands?_hereDocuments {before : Text} (quiet : ∀ unit ∈ before, unit ∉ opening)
    (documents : List WrittenDocument) (rest : Text) :
    ∃ commands, commands? before = some commands ∧
      commands? (withDocuments before documents ++ rest) = (commands? rest).map fun more =>
        commands ++ more.map fun command =>
          command.shift (withDocuments before documents).length := by
  obtain ⟨commands, splits, reads⟩ := commands?_announced quiet
    (documents.map WrittenDocument.announcement) (documents.flatMap WrittenDocument.body ++ rest)
  refine ⟨commands, splits, ?_⟩
  rw [WrittenDocument.behindAll_bodies, List.flatMap_map, List.length_append,
    Nat.add_sub_cancel] at reads
  rw [withDocuments, List.append_assoc, List.append_assoc, List.cons_append, reads,
    List.length_append, List.length_append, List.length_cons, Nat.add_assoc, Nat.add_assoc,
    Nat.add_comm 1]

/-- A document whose delimiter is in quotes and whose body is indented. -/
def indentedNote : WrittenDocument where
  announcement :=
    { Announcement.ofWord "END_1" true .single (by decide) (by decide) with
      gap := " ", gap_blank := by decide, behind := " ", behind_blank := by decide }
  lines := ["\tit\x27s", ""]
  indentation := 1
  areLines := by decide
  notClosed := by decide

/-- A document with a bare delimiter and a body with an open quote. -/
def bareNote : WrittenDocument where
  announcement := .ofWord "EOF" false .outside (by decide) (by decide)
  lines := ["conda remove \"x", "\tEOF"]
  indentation := 0
  areLines := by decide
  notClosed := by decide

theorem commands?_hereDocuments_openQuotes :
    withDocuments "do cat& tee" [indentedNote, bareNote] = Text.ofString
      "do cat& tee<<- \x27END_1\x27 <<EOF\n\tit\x27s\n\n\tEND_1\nconda remove \"x\n\tEOF\nEOF\n" ∧
    commands? (withDocuments "do cat& tee" [indentedNote, bareNote] ++ ">x ls") =
      some [[⟨"cat", ⟨3, 6⟩⟩], [⟨"tee", ⟨8, 11⟩⟩], [⟨">x", ⟨68, 70⟩⟩, ⟨"ls", ⟨71, 73⟩⟩]] := by
  have quiet : ∀ unit ∈ ("do cat& tee" : Text), unit ∉ opening := by decide
  obtain ⟨commands, splits, reads⟩ :=
    commands?_hereDocuments quiet [indentedNote, bareNote] ">x ls"
  have first : commands? "do cat& tee" = some [[⟨"cat", ⟨3, 6⟩⟩], [⟨"tee", ⟨8, 11⟩⟩]] := by
    decide +kernel
  cases first.symm.trans splits
  exact ⟨by decide +kernel, reads.trans (by decide +kernel)⟩

end SourceLint.Shell
