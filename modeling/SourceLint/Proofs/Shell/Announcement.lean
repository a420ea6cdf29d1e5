/-
This file says how a here-document is announced in a line of a shell text: by its operator and its
delimiter, in quotes or bare, with blanks around it. Reading that ends the open word and puts the
document behind those whose bodies are still to come, and nothing else. That a delimiter has ended
is known only when the next unit is read, so every step here is stated of the rest of the text.
-/
import SourceLint.Proofs.Shell.Remainder
import SourceLint.Proofs.Shell.Unquoting
import SourceLint.Proofs.Text.Cut

namespace SourceLint.Shell

/-- The unit that begins and ends quotes. -/
def Quoting.mark : Quoting → Option CodeUnit
  | .outside => none
  | .single => some 0x27
  | .double => some '"'

/-- A here-document as it stands in a line. The delimiter is of units that stand for themselves; a
hyphen at its start would belong to the operator. -/
structure Announcement where
  document : HereDocument
  quoting : Quoting
  /-- What stands between the operator and the delimiter. -/
  gap : Text
  /-- What stands behind the delimiter. -/
  behind : Text
  nonempty : document.delimiter ≠ []
  ordinary : ∀ unit ∈ document.delimiter, Splitter.isOrdinary unit = true
  notHyphen : document.delimiter.head? ≠ some ('-' : CodeUnit)
  gap_blank : ∀ unit ∈ gap, unit.isSpaceOrTab = true
  behind_blank : ∀ unit ∈ behind, unit.isBlank = true ∧ unit ≠ 0x0A

namespace Announcement

/-- The operator of a here-document, with a hyphen if tabs do not count in its body. -/
def operator (announcement : Announcement) : Text :=
  if announcement.document.stripsTabs then "<<-" else "<<"

/-- The delimiter with its quotes. -/
def word (announcement : Announcement) : Text :=
  announcement.quoting.mark.toList ++ announcement.document.delimiter ++
    announcement.quoting.mark.toList

/-- The text of an announcement. -/
def text (announcement : Announcement) : Text :=
  announcement.operator ++ (announcement.gap ++ (announcement.word ++ announcement.behind))

end Announcement

/-- A letter, a digit and an underscore stand for themselves. -/
theorem isOrdinary_of_isWordUnit {unit : CodeUnit} (isWordUnit : unit.isWordUnit = true) :
    Splitter.isOrdinary unit = true := by
  have notSign : ("\\\x27\"#;&|()<>" : Text).contains unit = false :=
    Text.contains_eq_false isWordUnit (by decide)
  have notBlank : unit.isBlank = false := by
    rcases Bool.or_eq_true_iff.mp isWordUnit with isOne | isUnderscore
    · exact CodeUnit.not_isBlank_of_isAlphanumeric isOne
    · rw [beq_iff_eq.mp isUnderscore]
      decide
  rw [Splitter.isOrdinary, notBlank, notSign]
  rfl

/-- Any word of letters, digits and underscores is announced, with or without quotes. -/
def Announcement.ofWord (word : Text) (stripsTabs : Bool) (quoting : Quoting) (nonempty : word ≠ [])
    (areWordUnits : ∀ unit ∈ word, unit.isWordUnit = true) : Announcement where
  document := ⟨word, stripsTabs⟩
  quoting := quoting
  gap := []
  behind := []
  nonempty := nonempty
  ordinary unit member := isOrdinary_of_isWordUnit (areWordUnits unit member)
  notHyphen isHyphen :=
    absurd (areWordUnits _ (List.mem_of_head? isHyphen)) (by decide)
  gap_blank := List.forall_mem_nil _
  behind_blank := List.forall_mem_nil _

theorem head?_append_ne {left right : Text} {other : CodeUnit}
    (unlike : ∀ unit ∈ left, unit ≠ other) (notNext : right.head? ≠ some other) :
    (left ++ right).head? ≠ some other := by
  cases left with
  | nil => exact notNext
  | cons unit more => exact mt Option.some.inj (unlike unit List.mem_cons_self)

namespace Splitter

variable {splitter : Splitter} {position : Nat} {unit : CodeUnit} {rest : Text}

/-- A machine that reads on in another mode. -/
def inMode (splitter : Splitter) (mode : Mode) : Splitter := { splitter with mode := mode }

/-- A machine with one more here-document to come. -/
def awaiting (splitter : Splitter) (document : HereDocument) : Splitter :=
  { splitter with pending := splitter.pending ++ [document] }

/-- A unit that changes the mode and nothing else. -/
theorem commandsFrom?_of_read (mode : Mode)
    (reads : splitter.read position unit rest = splitter.inMode mode)
    (notAmpersand : rest.head? ≠ some ('&' : CodeUnit)) :
    splitter.commandsFrom? position (unit :: rest) =
      (splitter.inMode mode).commandsFrom? (position + 1) rest := by
  rw [commandsFrom?_cons, step, reads, commandsFrom?_previous _ _ notAmpersand]

/-- Two machines that do the same at the next unit do the same from there on. -/
theorem commandsFrom?_congr {other : Splitter}
    (same : splitter.read position unit rest = other.read position unit rest) :
    splitter.commandsFrom? position (unit :: rest) =
      other.commandsFrom? position (unit :: rest) := by
  rw [commandsFrom?_cons, commandsFrom?_cons, step, step, same]

/-! ### The operator -/

/-- Two signs and no third end the open word. -/
theorem commandsFrom?_signs (plain : splitter.mode = .plain)
    (notSign : rest.head? ≠ some ('<' : CodeUnit))
    (notAmpersand : rest.head? ≠ some ('&' : CodeUnit)) :
    splitter.commandsFrom? position (('<' : CodeUnit) :: ('<' : CodeUnit) :: rest) =
      ((splitter.closeWord position).inMode .operatorHyphen).commandsFrom? (position + 2) rest := by
  have begins : beginsHereDocument (('<' : CodeUnit) :: rest) = true := by
    rw [beginsHereDocument, List.getElem?_cons_succ, ← List.head?_eq_getElem?]
    simp [notSign]
  have first : splitter.read position '<' (('<' : CodeUnit) :: rest) =
      (splitter.closeWord position).inMode .operatorTail := by
    rw [read, plain]
    dsimp only
    rw [readPlain_of_endsWord (by rw [endsWord, begins]; rfl), begins]
    rfl
  rw [commandsFrom?_cons, step, first, commandsFrom?_previous _ _ (by simp; decide)]
  exact commandsFrom?_of_read .operatorHyphen rfl notAmpersand

theorem commandsFrom?_operator (announcement : Announcement) (plain : splitter.mode = .plain)
    (notEmpty : rest ≠ []) (apart : ∀ other ∈ ("<&-" : Text), rest.head? ≠ some other) :
    splitter.commandsFrom? position (announcement.operator ++ rest) =
      ((splitter.closeWord position).inMode
        (.delimiterGap announcement.document.stripsTabs)).commandsFrom?
          (position + announcement.operator.length) rest := by
  have notAmpersand : rest.head? ≠ some ('&' : CodeUnit) := apart _ (by decide)
  rw [Announcement.operator]
  cases announcement.document.stripsTabs with
  | true =>
    have noSign : (('-' : CodeUnit) :: rest).head? ≠ some ('<' : CodeUnit) :=
      mt Option.some.inj (by decide)
    have noAmpersand : (('-' : CodeUnit) :: rest).head? ≠ some ('&' : CodeUnit) :=
      mt Option.some.inj (by decide)
    exact (commandsFrom?_signs plain noSign noAmpersand).trans
      (commandsFrom?_of_read (.delimiterGap true) rfl notAmpersand)
  | false =>
    refine (commandsFrom?_signs plain (apart _ (by decide)) notAmpersand).trans ?_
    cases rest with
    | nil => exact absurd rfl notEmpty
    | cons unit rest =>
      refine commandsFrom?_congr (if_neg fun isHyphen => ?_)
      exact apart _ (by decide) (congrArg some isHyphen)

/-! ### The delimiter -/

theorem commandsFrom?_gap {stripsTabs : Bool} {gap : Text}
    (areBlank : ∀ unit ∈ gap, unit.isSpaceOrTab = true)
    (notAmpersand : rest.head? ≠ some ('&' : CodeUnit)) :
    (splitter.inMode (.delimiterGap stripsTabs)).commandsFrom? position (gap ++ rest) =
      (splitter.inMode (.delimiterGap stripsTabs)).commandsFrom? (position + gap.length) rest := by
  induction gap generalizing position with
  | nil => rfl
  | cons unit gap inductionHypothesis =>
    obtain ⟨isBlank, areBlank⟩ := List.forall_mem_cons.mp areBlank
    have noAmpersand : (gap ++ rest).head? ≠ some ('&' : CodeUnit) := by
      refine head?_append_ne (fun next member => ?_) notAmpersand
      rintro rfl
      exact absurd (areBlank _ member) (by decide)
    rw [List.cons_append, commandsFrom?_of_read (.delimiterGap stripsTabs) ?_ noAmpersand,
      List.length_cons, Nat.add_comm gap.length, ← Nat.add_assoc]
    · exact inductionHypothesis areBlank
    · exact if_pos isBlank

theorem endsDelimiter_of_isOrdinary (ordinary : isOrdinary unit = true) :
    endsDelimiter unit = false := by
  have notSign : (";&|()<>" : Text).contains unit = false :=
    Text.contains_eq_false ordinary (by decide)
  rw [endsDelimiter, not_isBlank_of_isOrdinary ordinary, notSign]
  rfl

/-- A unit that stands for itself goes to the delimiter, in quotes as well as outside. -/
theorem readDelimiter_of_isOrdinary (stripsTabs : Bool) (quoting : Quoting) (read : Text)
    (ordinary : isOrdinary unit = true) :
    splitter.readDelimiter stripsTabs ⟨read, quoting.mark, false⟩ position unit rest =
      splitter.inMode (.delimiter stripsTabs ⟨read ++ [unit], quoting.mark, false⟩) := by
  have notSingle : unit ≠ 0x27 := ne_of_isOrdinary ordinary _ (by decide)
  have notDouble : unit ≠ '"' := ne_of_isOrdinary ordinary _ (by decide)
  have notBackslash : unit ≠ '\\' := ne_of_isOrdinary ordinary _ (by decide)
  cases quoting with
  | outside =>
    simp [readDelimiter, inMode, Quoting.mark, notSingle, notDouble, notBackslash,
      endsDelimiter_of_isOrdinary ordinary]
  | single => simp [readDelimiter, inMode, Quoting.mark, notSingle]
  | double => simp [readDelimiter, inMode, Quoting.mark, notDouble]

theorem commandsFrom?_units {stripsTabs : Bool} {quoting : Quoting} {units : Text} (read : Text)
    (ordinary : ∀ unit ∈ units, isOrdinary unit = true)
    (notAmpersand : rest.head? ≠ some ('&' : CodeUnit)) :
    (splitter.inMode (.delimiter stripsTabs ⟨read, quoting.mark, false⟩)).commandsFrom? position
        (units ++ rest) =
      (splitter.inMode (.delimiter stripsTabs ⟨read ++ units, quoting.mark, false⟩)).commandsFrom?
        (position + units.length) rest := by
  induction units generalizing read position with
  | nil => rw [List.append_nil]; rfl
  | cons unit units inductionHypothesis =>
    obtain ⟨own, others⟩ := List.forall_mem_cons.mp ordinary
    have noAmpersand : (units ++ rest).head? ≠ some ('&' : CodeUnit) :=
      head?_append_ne (fun next member => ne_of_isOrdinary (others next member) _ (by decide))
        notAmpersand
    have grows : (splitter.inMode (.delimiter stripsTabs ⟨read, quoting.mark, false⟩)).read position
        unit (units ++ rest) =
          splitter.inMode (.delimiter stripsTabs ⟨read ++ [unit], quoting.mark, false⟩) :=
      readDelimiter_of_isOrdinary stripsTabs quoting read own
    refine (commandsFrom?_of_read _ grows noAmpersand).trans ?_
    refine (inductionHypothesis (read ++ [unit]) others).trans ?_
    rw [List.append_assoc, Nat.add_assoc, Nat.add_comm 1]
    rfl

/-- A quote opens. -/
theorem commandsFrom?_mark {stripsTabs : Bool} (quoting : Quoting)
    (notAmpersand : rest.head? ≠ some ('&' : CodeUnit)) :
    (splitter.inMode (.delimiter stripsTabs {})).commandsFrom? position
        (quoting.mark.toList ++ rest) =
      (splitter.inMode (.delimiter stripsTabs ⟨[], quoting.mark, false⟩)).commandsFrom?
        (position + quoting.mark.toList.length) rest := by
  cases quoting with
  | outside => rfl
  | single | double => exact commandsFrom?_of_read _ rfl notAmpersand

/-- The quote closes. -/
theorem commandsFrom?_mark_again {stripsTabs : Bool} (quoting : Quoting) (read : Text)
    (notAmpersand : rest.head? ≠ some ('&' : CodeUnit)) :
    (splitter.inMode (.delimiter stripsTabs ⟨read, quoting.mark, false⟩)).commandsFrom? position
        (quoting.mark.toList ++ rest) =
      (splitter.inMode (.delimiter stripsTabs { text := read })).commandsFrom?
        (position + quoting.mark.toList.length) rest := by
  cases quoting with
  | outside => rfl
  | single | double => exact commandsFrom?_of_read _ rfl notAmpersand

/-- A delimiter begins with a quote or with a unit that stands for itself. -/
theorem exists_word_eq_cons (announcement : Announcement) :
    ∃ unit more, announcement.word = unit :: more ∧ unit.isSpaceOrTab = false ∧ unit ≠ '<' ∧
      unit ≠ '&' ∧ unit ≠ '-' := by
  obtain ⟨unit, more, isDelimiter⟩ := List.exists_cons_of_ne_nil announcement.nonempty
  have ordinary := announcement.ordinary unit (isDelimiter ▸ List.mem_cons_self)
  have notHyphen : unit ≠ '-' := by
    rintro rfl
    exact announcement.notHyphen (isDelimiter ▸ rfl)
  rw [Announcement.word, isDelimiter]
  cases announcement.quoting with
  | outside =>
    refine ⟨unit, more ++ [], rfl, ?_, ne_of_isOrdinary ordinary _ (by decide),
      ne_of_isOrdinary ordinary _ (by decide), notHyphen⟩
    refine Bool.eq_false_iff.mpr fun isSpaceOrTab => ?_
    rcases Bool.or_eq_true_iff.mp isSpaceOrTab with isSpace | isTab
    · exact ne_of_isOrdinary ordinary 0x20 (by decide) (beq_iff_eq.mp isSpace)
    · exact ne_of_isOrdinary ordinary 0x09 (by decide) (beq_iff_eq.mp isTab)
  | single | double => exact ⟨_, _, rfl, by decide, by decide, by decide, by decide⟩

/-- No delimiter begins with a unit that would belong to the operator. -/
theorem head?_word_ne (announcement : Announcement) (rest : Text) :
    ∀ other ∈ ("<&-" : Text), (announcement.word ++ rest).head? ≠ some other := by
  obtain ⟨first, more, isWord, _, notSign, notAmpersand, notHyphen⟩ :=
    exists_word_eq_cons announcement
  rw [isWord]
  refine fun other member => mt Option.some.inj ?_
  revert other
  refine List.forall_mem_cons.mpr ⟨notSign, List.forall_mem_cons.mpr ⟨notAmpersand, ?_⟩⟩
  exact List.forall_mem_singleton.mpr notHyphen

/-- Nothing behind the operator belongs to it. -/
theorem head?_gap_ne (announcement : Announcement) (rest : Text) :
    ∀ other ∈ ("<&-" : Text),
      (announcement.gap ++ (announcement.word ++ rest)).head? ≠ some other := by
  intro other member
  refine head?_append_ne (fun next isNext => ?_) (head?_word_ne announcement rest other member)
  rintro rfl
  have notOne : ("<&-" : Text).contains next = false :=
    Text.contains_eq_false (announcement.gap_blank next isNext) (by decide)
  rw [List.contains_iff_mem.mpr member] at notOne
  cases notOne

/-- A delimiter ends at the first unit behind it, which is a blank or the one that comes next. -/
theorem exists_behind_eq_cons (announcement : Announcement) (ends : endsDelimiter unit = true)
    (rest : Text) :
    ∃ next more, announcement.behind ++ unit :: rest = next :: more ∧
      endsDelimiter next = true := by
  cases isBehind : announcement.behind with
  | nil => exact ⟨unit, rest, rfl, ends⟩
  | cons next more =>
    refine ⟨next, more ++ unit :: rest, rfl, ?_⟩
    rw [endsDelimiter, (announcement.behind_blank next (isBehind ▸ List.mem_cons_self)).1]
    rfl

/-- A delimiter with its quotes is read to its end. -/
theorem commandsFrom?_word (announcement : Announcement)
    (notAmpersand : rest.head? ≠ some ('&' : CodeUnit)) :
    (splitter.inMode (.delimiterGap announcement.document.stripsTabs)).commandsFrom? position
        (announcement.word ++ rest) =
      (splitter.inMode (.delimiter announcement.document.stripsTabs
        { text := announcement.document.delimiter })).commandsFrom?
          (position + announcement.word.length) rest := by
  have begins : (splitter.inMode (.delimiterGap announcement.document.stripsTabs)).commandsFrom?
      position (announcement.word ++ rest) =
        (splitter.inMode (.delimiter announcement.document.stripsTabs {})).commandsFrom? position
          (announcement.word ++ rest) := by
    obtain ⟨unit, more, isWord, notBlank, _⟩ := exists_word_eq_cons announcement
    rw [isWord]
    exact commandsFrom?_congr (if_neg (by rw [notBlank]; decide))
  have markPlain : ∀ unit ∈ announcement.quoting.mark.toList, unit ≠ ('&' : CodeUnit) := by
    cases announcement.quoting <;> simp [Quoting.mark] <;> decide
  have behindUnits : (announcement.quoting.mark.toList ++ rest).head? ≠ some ('&' : CodeUnit) :=
    head?_append_ne markPlain notAmpersand
  have behindMark : (announcement.document.delimiter ++
      (announcement.quoting.mark.toList ++ rest)).head? ≠ some ('&' : CodeUnit) :=
    head?_append_ne
      (fun unit member => ne_of_isOrdinary (announcement.ordinary unit member) _ (by decide))
      behindUnits
  rw [begins, Announcement.word, List.append_assoc, List.append_assoc,
    commandsFrom?_mark _ behindMark, commandsFrom?_units [] announcement.ordinary behindUnits,
    List.nil_append, commandsFrom?_mark_again _ _ notAmpersand, List.length_append,
    List.length_append, Nat.add_assoc, Nat.add_assoc, Nat.add_assoc]

/-- A unit that ends the delimiter is read as outside of quotes. -/
theorem commandsFrom?_delimiterEnd (document : HereDocument)
    (ends : endsDelimiter unit = true) :
    (splitter.inMode (.delimiter document.stripsTabs { text := document.delimiter })).commandsFrom?
        position (unit :: rest) =
      ((splitter.inMode .plain).awaiting document).commandsFrom? position (unit :: rest) := by
  have unlike : unit ≠ 0x27 ∧ unit ≠ '"' ∧ unit ≠ '\\' := by
    refine ⟨?_, ?_, ?_⟩ <;>
    · rintro rfl
      exact absurd ends (by decide)
  obtain ⟨notSingle, notDouble, notBackslash⟩ := unlike
  refine commandsFrom?_congr ?_
  simp [read, readDelimiter, inMode, awaiting, notSingle, notDouble, notBackslash, ends]

/-- White space outside of quotes ends the open word, unless it is a line feed. -/
theorem readPlain_of_isBlank (isBlank : unit.isBlank = true) (notFeed : unit ≠ 0x0A) :
    splitter.readPlain position unit rest = splitter.closeWord position := by
  have unlike (other : CodeUnit) (notBlank : other.isBlank = false) : unit ≠ other := by
    rintro rfl
    rw [notBlank] at isBlank
    cases isBlank
  have notSign : (unit = '<' && beginsHereDocument rest) = false := by
    rw [decide_eq_false (unlike '<' (by decide)), Bool.false_and]
  have notAmpersand : (unit = '&' && isRedirection splitter.previous rest) = false := by
    rw [decide_eq_false (unlike '&' (by decide)), Bool.false_and]
  have notOperator : isOperator unit = false :=
    Text.contains_eq_false isBlank (by decide)
  rw [readPlain_of_endsWord, notSign, notOperator, if_neg Bool.false_ne_true, if_neg notFeed,
    if_neg Bool.false_ne_true]
  rw [endsWord, notSign, notAmpersand, notOperator, isBlank]
  rfl

theorem commandsFrom?_blanks {blanks : Text} (plain : splitter.mode = .plain)
    (isNone : splitter.word = none)
    (areBlank : ∀ unit ∈ blanks, unit.isBlank = true ∧ unit ≠ 0x0A)
    (notAmpersand : rest.head? ≠ some ('&' : CodeUnit)) :
    splitter.commandsFrom? position (blanks ++ rest) =
      splitter.commandsFrom? (position + blanks.length) rest := by
  induction blanks generalizing position with
  | nil => rfl
  | cons unit blanks inductionHypothesis =>
    obtain ⟨⟨isBlank, notFeed⟩, areBlank⟩ := List.forall_mem_cons.mp areBlank
    have noAmpersand : (blanks ++ rest).head? ≠ some ('&' : CodeUnit) := by
      refine head?_append_ne (fun next member => ?_) notAmpersand
      rintro rfl
      exact absurd (areBlank _ member).1 (by decide)
    have stays : splitter.read position unit (blanks ++ rest) = splitter := by
      rw [read, plain]
      exact (readPlain_of_isBlank isBlank notFeed).trans (closeWord_of_no_word isNone)
    rw [List.cons_append, commandsFrom?_cons, step, stays, commandsFrom?_previous _ _ noAmpersand,
      inductionHypothesis areBlank, List.length_cons, Nat.add_right_comm, Nat.add_assoc]

/-- An announcement ends the open word and puts its document behind the others. -/
theorem commandsFrom?_announcement (announcement : Announcement) (plain : splitter.mode = .plain)
    (ends : endsDelimiter unit = true) (notAmpersand : unit ≠ '&') :
    splitter.commandsFrom? position (announcement.text ++ unit :: rest) =
      ((splitter.closeWord position).awaiting announcement.document).commandsFrom?
        (position + announcement.text.length) (unit :: rest) := by
  have noAmpersand : (unit :: rest).head? ≠ some ('&' : CodeUnit) := mt Option.some.inj notAmpersand
  have behindWord : (announcement.behind ++ unit :: rest).head? ≠ some ('&' : CodeUnit) := by
    refine head?_append_ne (fun next member => ?_) noAmpersand
    rintro rfl
    exact absurd (announcement.behind_blank _ member).1 (by decide)
  obtain ⟨next, more, isNext, endsNext⟩ := exists_behind_eq_cons announcement ends rest
  have stillPlain : (splitter.closeWord position).inMode .plain = splitter.closeWord position := by
    have sameMode : (splitter.closeWord position).mode = splitter.mode := mode_closeWord
    rw [inMode, ← plain, ← sameMode]
  have awaitingPlain :
      ((splitter.closeWord position).awaiting announcement.document).mode = .plain :=
    mode_closeWord.trans plain
  have noWord : ((splitter.closeWord position).awaiting announcement.document).word = none :=
    word_closeWord
  rw [Announcement.text, List.append_assoc, List.append_assoc, List.append_assoc,
    commandsFrom?_operator announcement plain (by simp) (head?_gap_ne announcement _),
    commandsFrom?_gap announcement.gap_blank (head?_word_ne announcement _ _ (by decide)),
    commandsFrom?_word announcement behindWord, isNext, commandsFrom?_delimiterEnd _ endsNext,
    ← isNext, stillPlain,
    commandsFrom?_blanks awaitingPlain noWord announcement.behind_blank noAmpersand]
  simp only [List.length_append, Nat.add_assoc]

end Splitter

end SourceLint.Shell
