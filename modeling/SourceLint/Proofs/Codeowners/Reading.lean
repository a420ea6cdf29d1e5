/-
This file says what is read on a line of an owners file, in terms of the line alone. The spans of the
words stand one behind another from the start of the line, that of an owner with the blanks that set
it off; the line holds at each span what was read there; and a word goes on as far as it can, up to a
blank, a number sign, a backslash with nothing behind it or the end of the line. Nothing is read on a
line that does not begin with a word, blanks and a word.
-/
import SourceLint.Proofs.Codeowners.Words
import SourceLint.Proofs.Linter.Splice

namespace SourceLint.Codeowners

/-! ### Where words stop -/

/-- What stops a word: the end of the line, a blank, a number sign, or a backslash that ends the line. -/
inductive StopsWord : Text → Prop
  | nothing : StopsWord []
  | blank {unit : CodeUnit} (isBlank : unit.isBlank = true) (rest : Text) : StopsWord (unit :: rest)
  | comment (rest : Text) : StopsWord (('#' : CodeUnit) :: rest)
  | backslash : StopsWord [('\\' : CodeUnit)]

/-- What may stand behind the last owner of a line: blanks, and then nothing, a comment, or a
backslash that ends the line. -/
def EndsLine (text : Text) : Prop :=
  ∃ blanks more : Text, text = blanks ++ more ∧ (∀ unit ∈ blanks, unit.isBlank = true) ∧
    (more = [] ∨ more.head? = some ('#' : CodeUnit) ∨ more = [('\\' : CodeUnit)])

theorem stopsWord_of_wordLength {text : Text} (noFeed : 0x0A ∉ text) (noWord : wordLength text = 0) :
    StopsWord text := by
  have stops {unit : CodeUnit} (rest : Text) (ends : unit = '#' ∨ unit.isBlank = true) :
      StopsWord (unit :: rest) := by
    rcases ends with rfl | isBlank
    · exact .comment rest
    · exact .blank isBlank rest
  revert noWord
  fun_cases wordLength text with
  | case1 => exact fun _ => .nothing
  | case2 unit ends =>
    simp only [Bool.or_eq_true, decide_eq_true_eq, or_assoc] at ends
    rcases ends with rfl | ends
    · exact fun _ => .backslash
    · exact fun _ => stops [] ends
  | case3 unit goesOn => exact fun isZero => absurd isZero Nat.one_ne_zero
  | case4 rest => exact absurd (List.mem_cons_of_mem _ List.mem_cons_self) noFeed
  | case5 next rest notFeed => exact fun isZero => absurd isZero (by omega)
  | case6 unit next rest notEscape ends =>
    simp only [Bool.or_eq_true, decide_eq_true_eq] at ends
    exact fun _ => stops (next :: rest) ends
  | case7 unit next rest notEscape goesOn => exact fun isZero => absurd isZero (by omega)

/-- Behind its owners a line ends. -/
theorem EndsOwners.endsLine {rest : Text} (noFeed : 0x0A ∉ rest) (ends : EndsOwners rest) :
    EndsLine rest := by
  refine ⟨rest.takeWhile CodeUnit.isBlank, rest.dropWhile CodeUnit.isBlank,
    List.takeWhile_append_dropWhile.symm, fun unit => List.mem_takeWhile_imp, ?_⟩
  have notBlank := Text.head?_dropWhile_stops CodeUnit.isBlank rest
  have stops := stopsWord_of_wordLength
    (fun member => noFeed ((List.dropWhile_sublist CodeUnit.isBlank).subset member))
    ends.wordLength_eq_zero.2
  generalize rest.dropWhile CodeUnit.isBlank = more at notBlank stops ⊢
  cases stops with
  | nothing => exact .inl rfl
  | blank isBlank => exact absurd isBlank (notBlank _ rfl)
  | comment => exact .inr (.inl rfl)
  | backslash => exact .inr (.inr rfl)

/-! ### What is read -/

/-- The part of a line at a span, when the line begins at a position. -/
def textOn (line : Text) (position : Nat) (span : Span) : Text :=
  line.slice (span.start - position) (span.stop - position)

/-- What a line holds behind a span, when it begins at a position. -/
def behindOn (line : Text) (position : Nat) (span : Span) : Text := line.drop (span.stop - position)

/-- An owner is where its spans say: a word that goes on as far as it can, behind at least one blank. -/
structure Owner.StandsOn (line : Text) (position : Nat) (owner : Owner) : Prop where
  isWord : IsWord owner.name
  text : textOn line position owner.span = owner.name
  textWithBlanks : ∃ blanks, blanks ≠ [] ∧ (∀ unit ∈ blanks, unit.isBlank = true) ∧
    textOn line position owner.spanWithBlanks = blanks ++ owner.name
  stop_eq : owner.spanWithBlanks.stop = owner.span.stop
  stops : StopsWord (behindOn line position owner.span)

/-- An assignment is what a line says that begins at a position: a file pattern at its start, at least
one owner, each behind the word before it, and nothing of interest behind the last. -/
structure Assignment.StandsOn (line : Text) (position : Nat) (assignment : Assignment) : Prop where
  start_eq : assignment.fileSpan.start = position
  isWord : IsWord assignment.file
  text : textOn line position assignment.fileSpan = assignment.file
  stops : StopsWord (behindOn line position assignment.fileSpan)
  hasOwner : assignment.owners ≠ []
  owners : ∀ owner ∈ assignment.owners, owner.StandsOn line position
  contiguous : (assignment.fileSpan :: assignment.owners.map Owner.spanWithBlanks).IsChain
    fun before behind => behind.start = before.stop
  rest : ∀ last ∈ assignment.owners.getLast?, EndsLine (behindOn line position last.span)

/-- A line begins with a word, blanks and another word. -/
def BeginsAssignment (line : Text) : Prop :=
  ∃ file blanks owner rest : Text, line = file ++ (blanks ++ (owner ++ rest)) ∧ IsWord file ∧
    blanks ≠ [] ∧ (∀ unit ∈ blanks, unit.isBlank = true) ∧ IsWord owner

section placed

variable {line before : Text} {position : Nat}

theorem textOn_append (text below : Text) (whole : line = before ++ (text ++ below)) :
    textOn line position
      ⟨position + before.length, position + before.length + text.length⟩ = text := by
  rw [textOn, Nat.add_sub_cancel_left, Nat.add_assoc, Nat.add_sub_cancel_left, whole,
    Text.slice_append]

theorem behindOn_append (below : Text) (whole : line = before ++ below) (start : Nat) :
    behindOn line position ⟨start, position + before.length⟩ = below := by
  rw [behindOn, Nat.add_sub_cancel_left, whole, List.drop_left]

end placed

theorem isChain_ownersAt (span : Span) (entries : List Entry) :
    (span :: (ownersAt span.stop entries).map Owner.spanWithBlanks).IsChain
      fun before behind => behind.start = before.stop := by
  induction entries generalizing span with
  | nil => exact .singleton span
  | cons entry entries inductionHypothesis =>
    rw [ownersAt, List.map_cons, List.isChain_cons_cons]
    exact ⟨rfl, inductionHypothesis ⟨span.stop, span.stop + entry.text.length⟩⟩

/-- What stands behind a word that owners or the end of a line follow stops it. -/
theorem stopsWord_written {entries : List Entry} (areOwners : ∀ entry ∈ entries, entry.IsOwner)
    {rest : Text} (noFeed : 0x0A ∉ rest) (ends : EndsOwners rest) :
    StopsWord (written entries ++ rest) := by
  cases entries with
  | nil => exact stopsWord_of_wordLength noFeed ends.wordLength_eq_zero.1
  | cons entry entries =>
    obtain ⟨notEmpty, areBlank, -⟩ := areOwners entry List.mem_cons_self
    obtain ⟨blank, blanks, same⟩ := List.exists_cons_of_ne_nil notEmpty
    rw [written_cons, Entry.text, same]
    exact .blank (areBlank blank (same ▸ List.mem_cons_self)) _

theorem standsOn_ownersAt {line before rest : Text} (position : Nat) {entries : List Entry}
    (areOwners : ∀ entry ∈ entries, entry.IsOwner) (noFeed : 0x0A ∉ rest) (ends : EndsOwners rest)
    (whole : line = before ++ (written entries ++ rest)) :
    ∀ owner ∈ ownersAt (position + before.length) entries, owner.StandsOn line position := by
  induction entries generalizing before with
  | nil => exact List.forall_mem_nil _
  | cons entry entries inductionHypothesis =>
    obtain ⟨isOwner, others⟩ := List.forall_mem_cons.mp areOwners
    rw [written_cons, List.append_assoc] at whole
    have below : line = (before ++ entry.text) ++ (written entries ++ rest) := by
      rw [whole, List.append_assoc]
    have name : line = (before ++ entry.blanks) ++ (entry.name ++ (written entries ++ rest)) := by
      rw [whole, Entry.text, List.append_assoc, List.append_assoc]
    have stop_eq : position + before.length + entry.text.length =
        position + (before ++ entry.text).length := by
      rw [List.length_append, Nat.add_assoc]
    rw [ownersAt]
    refine List.forall_mem_cons.mpr ⟨⟨isOwner.isWord, ?_, ⟨entry.blanks, isOwner.notEmpty,
      isOwner.areBlank, textOn_append entry.text _ whole⟩, rfl, ?_⟩, ?_⟩
    · have found : textOn line position ⟨position + (before ++ entry.blanks).length,
          position + (before ++ entry.blanks).length + entry.name.length⟩ = entry.name :=
        textOn_append entry.name _ name
      rw [List.length_append, ← Nat.add_assoc, Nat.add_assoc (position + before.length),
        ← List.length_append] at found
      exact found
    · dsimp only
      rw [stop_eq, behindOn_append _ below]
      exact stopsWord_written others noFeed ends
    · rw [stop_eq]
      exact inductionHypothesis others below

theorem beginsAssignment_iff (line : Text) (position : Nat) :
    BeginsAssignment line ↔ (Assignment.ofLine? line position).isSome = true := by
  constructor
  · rintro ⟨file, blanks, owner, rest, rfl, isFile, notEmpty, areBlank, isOwner⟩
    obtain ⟨blank, others, same⟩ := List.exists_cons_of_ne_nil notEmpty
    have fileEnds : wordLength (file ++ (blanks ++ (owner ++ rest))) = file.length := by
      rw [isFile.spelled.wordLength_append, same, List.cons_append,
        wordLength_blank (areBlank blank (same ▸ List.mem_cons_self)), Nat.add_zero]
    have stops : ∀ unit ∈ (owner ++ rest).head?, ¬unit.isBlank = true := by
      rw [List.head?_append_of_ne_nil _ isOwner.notEmpty]
      exact isOwner.head_not_isBlank
    have isSome := isOwner.wordLength_pos rest
    obtain ⟨fuel, enough⟩ : ∃ fuel, (file ++ (blanks ++ (owner ++ rest))).length = fuel + 1 := by
      refine Nat.exists_eq_succ_of_ne_zero ?_
      simp [isFile.notEmpty]
    have owners : ownersFrom (fuel + 1) (position + file.length) (blanks ++ (owner ++ rest)) ≠ [] := by
      rw [ownersFrom, Text.takeWhile_append_of_stops areBlank stops, List.drop_left, if_neg]
      · exact List.cons_ne_nil _ _
      · simp [notEmpty]
        omega
    rw [Assignment.ofLine?]
    rw [fileEnds, List.drop_left, enough, if_neg]
    · rfl
    · simp [isFile.notEmpty, owners]
  · intro reads
    obtain ⟨assignment, reads⟩ := Option.isSome_iff_exists.mp reads
    obtain ⟨file, entries, rest, assigns, -⟩ := exists_assigns reads
    obtain ⟨entry, others, rfl⟩ := List.exists_cons_of_ne_nil assigns.notEmpty
    obtain ⟨notEmpty, areBlank, isWord⟩ := assigns.areOwners entry List.mem_cons_self
    refine ⟨file, entry.blanks, entry.name, written others ++ rest, ?_, assigns.isWord, notEmpty,
      areBlank, isWord⟩
    rw [assigns.whole, written_cons, Entry.text, List.append_assoc, List.append_assoc]

/-- On a line, wherever it begins, an assignment is read exactly if the line begins with a file
pattern, blanks and an owner, and then it is what the line says. -/
theorem ofLine?_reads {line : Text} (noFeed : 0x0A ∉ line) (position : Nat) :
    (Assignment.ofLine? line position = none ↔ ¬BeginsAssignment line) ∧
      ∀ assignment, Assignment.ofLine? line position = some assignment →
        assignment.StandsOn line position := by
  constructor
  · rw [beginsAssignment_iff line position, Option.not_isSome_iff_eq_none]
  · intro assignment reads
    obtain ⟨file, entries, rest, assigns, rfl⟩ := exists_assigns reads
    obtain ⟨whole, isWord, notEmpty, areOwners, ends⟩ := assigns
    have restNoFeed : 0x0A ∉ rest := fun member => noFeed (by simp [whole, member])
    have owners := standsOn_ownersAt position areOwners restNoFeed ends whole
    have start : line = [] ++ (file ++ (written entries ++ rest)) := whole
    refine ⟨rfl, isWord, textOn_append file _ start, ?_, ownersAt_eq_nil_iff.not.mpr notEmpty,
      owners, isChain_ownersAt _ entries, fun last isLast => ?_⟩
    · rw [assignmentAt, behindOn_append _ whole]
      exact stopsWord_written areOwners restNoFeed ends
    · obtain ⟨other, isOther, stop_eq⟩ := getLast?_ownersAt (position + file.length) notEmpty
      cases Option.some.inj (isOther.symm.trans isLast)
      have below : line = (file ++ written entries) ++ rest := by rw [whole, List.append_assoc]
      rw [behindOn, stop_eq, Nat.add_assoc, Nat.add_sub_cancel_left, ← List.length_append, below,
        List.drop_left]
      exact ends.endsLine restNoFeed

/-- A line with an escaped blank in its file pattern, a tab between owners and a comment. -/
def escapedBlank : Text := "a\\ b \t@x @y# @z"

theorem ofLine?_reads_escapedBlank :
    Assignment.ofLine? escapedBlank 7 = some ⟨"a\\ b", ⟨7, 11⟩,
        [⟨"@x", ⟨13, 15⟩, ⟨11, 15⟩⟩, ⟨"@y", ⟨16, 18⟩, ⟨15, 18⟩⟩]⟩ ∧
      Assignment.StandsOn escapedBlank 7 ⟨"a\\ b", ⟨7, 11⟩,
        [⟨"@x", ⟨13, 15⟩, ⟨11, 15⟩⟩, ⟨"@y", ⟨16, 18⟩, ⟨15, 18⟩⟩]⟩ :=
  have reads := by decide +kernel
  ⟨reads, (@ofLine?_reads escapedBlank (by decide) 7).2 _ reads⟩

end SourceLint.Codeowners
