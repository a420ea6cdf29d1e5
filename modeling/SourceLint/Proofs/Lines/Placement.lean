/-
This file says where the lines of a text stand. The lines with their endings make up the text
again, each line begins past the ending of the one before it, and every unit that ends no line lies
in exactly one line. The look-up of a position is read off from this: lines do not touch, so at most
one line holds a position, and the search by halving never leaves the half with that line.
-/
import SourceLint.Lines
import SourceLint.Proofs.Span.Order

namespace SourceLint

/-! ### The parts of a text -/

theorem Newline.text_length_pos (newline : Newline) : 0 < newline.text.length := by
  cases newline <;> decide

/-- A line ending has no unit but line feeds and carriage returns. -/
theorem Newline.mem_text (newline : Newline) (unit : CodeUnit) (member : unit ∈ newline.text) :
    unit = 0x0A ∨ unit = 0x0D := by
  cases newline <;> simp only [Newline.text, List.mem_cons, List.not_mem_nil, or_false] at member
  case lf => exact Or.inl member
  case crlf => exact member.symm
  case cr => exact Or.inr member

/-- The units of a part and of its ending. -/
def partText (part : Text × Option Newline) : Text :=
  part.1 ++ (part.2.map Newline.text).getD []

/-- Cutting a text after its line endings loses nothing. -/
theorem flatMap_physicalLines (text : Text) : (physicalLines text).flatMap partText = text := by
  fun_induction physicalLines text with
  | case1 => rfl
  | case2 rest inductionHypothesis =>
    rw [List.flatMap_cons, inductionHypothesis]
    rfl
  | case3 => rfl
  | case4 rest _ inductionHypothesis =>
    rw [List.flatMap_cons, inductionHypothesis]
    rfl
  | case5 next rest _ _ inductionHypothesis =>
    rw [List.flatMap_cons, inductionHypothesis]
    rfl
  | case6 unit rest _ _ text ending more parts inductionHypothesis =>
    rw [parts] at inductionHypothesis
    rw [← inductionHypothesis]
    rfl
  | case7 unit rest _ _ parts inductionHypothesis =>
    rw [parts] at inductionHypothesis
    rw [← inductionHypothesis]
    rfl

/-- Only the last part of a text may lack an ending. -/
theorem physicalLines_pairwise (text : Text) :
    (physicalLines text).Pairwise fun part _ => part.2.isSome := by
  fun_induction physicalLines text with
  | case1 => exact List.pairwise_singleton _ _
  | case2 rest inductionHypothesis =>
    exact List.pairwise_cons.mpr ⟨fun _ _ => rfl, inductionHypothesis⟩
  | case3 => exact List.pairwise_pair.mpr rfl
  | case4 rest _ inductionHypothesis =>
    exact List.pairwise_cons.mpr ⟨fun _ _ => rfl, inductionHypothesis⟩
  | case5 next rest _ _ inductionHypothesis =>
    exact List.pairwise_cons.mpr ⟨fun _ _ => rfl, inductionHypothesis⟩
  | case6 unit rest _ _ text ending more parts inductionHypothesis =>
    rw [parts, List.pairwise_cons] at inductionHypothesis
    exact List.pairwise_cons.mpr inductionHypothesis
  | case7 => exact List.pairwise_singleton _ _

/-! ### Lines in their places -/

theorem Line.start_le_stop (line : Line) : line.start ≤ line.stop := Nat.le_add_right _ _

/-- Where lines are placed has no influence on what stands on them. -/
theorem map_text_placeLines (start : Nat) (parts : List (Text × Option Newline)) :
    (placeLines start parts).map Line.text = parts.map Prod.fst := by
  induction parts generalizing start with
  | nil => rfl
  | cons part rest inductionHypothesis =>
    rw [placeLines, List.map_cons, List.map_cons, inductionHypothesis]

theorem map_ending_placeLines (start : Nat) (parts : List (Text × Option Newline)) :
    (placeLines start parts).map Line.ending = parts.map Prod.snd := by
  induction parts generalizing start with
  | nil => rfl
  | cons part rest inductionHypothesis =>
    rw [placeLines, List.map_cons, List.map_cons, inductionHypothesis]

/-- Lines follow one another from a position on, each with its ending. -/
theorem start_le_of_mem_placeLines (start : Nat) (parts : List (Text × Option Newline))
    (line : Line) (member : line ∈ placeLines start parts) : start ≤ line.start := by
  induction parts generalizing start with
  | nil => exact absurd member List.not_mem_nil
  | cons part rest inductionHypothesis =>
    rcases List.mem_cons.mp member with rfl | later
    · exact Nat.le_refl _
    · exact Nat.le_trans (Nat.le_add_right _ _) (inductionHypothesis _ later)

theorem stop_le_of_mem_placeLines (start : Nat) (parts : List (Text × Option Newline))
    (line : Line) (member : line ∈ placeLines start parts) :
    line.stop ≤ start + (parts.flatMap partText).length := by
  induction parts generalizing start with
  | nil => exact absurd member List.not_mem_nil
  | cons part rest inductionHypothesis =>
    rw [List.flatMap_cons, List.length_append, ← Nat.add_assoc]
    rcases List.mem_cons.mp member with rfl | later
    · have shorter : part.1.length ≤ (partText part).length := by
        rw [partText, List.length_append]
        exact Nat.le_add_right _ _
      show start + part.1.length ≤ _
      omega
    · exact inductionHypothesis _ later

/-- A line with an ending stops before all later lines start. -/
theorem placeLines_pairwise (start : Nat) (parts : List (Text × Option Newline))
    (endings : parts.Pairwise fun part _ => part.2.isSome) :
    (placeLines start parts).Pairwise fun earlier later => earlier.stop < later.start := by
  induction parts generalizing start with
  | nil => exact List.Pairwise.nil
  | cons part rest inductionHypothesis =>
    obtain ⟨hasEnding, restEndings⟩ := List.pairwise_cons.mp endings
    refine List.pairwise_cons.mpr ⟨fun later member => ?_, inductionHypothesis _ restEndings⟩
    have after := start_le_of_mem_placeLines _ _ _ member
    cases rest with
    | nil => exact absurd member List.not_mem_nil
    | cons next _ =>
      obtain ⟨text, ending⟩ := part
      obtain ⟨newline, rfl⟩ := Option.isSome_iff_exists.mp (hasEnding next List.mem_cons_self)
      have positive := newline.text_length_pos
      simp only [Line.fullText, Option.map_some, Option.getD_some, List.length_append] at after
      show start + text.length < later.start
      omega

/-- A unit of the joined parts that ends no line lies in the text of one of the lines. -/
theorem exists_mem_placeLines (start : Nat) (parts : List (Text × Option Newline))
    (offset : Nat) (unit : CodeUnit) (found : (parts.flatMap partText)[offset]? = some unit)
    (notFeed : unit ≠ 0x0A) (notReturn : unit ≠ 0x0D) :
    ∃ line ∈ placeLines start parts, line.span.Covers (start + offset) := by
  induction parts generalizing start offset with
  | nil => exact absurd found (by simp)
  | cons part rest inductionHypothesis =>
    obtain ⟨text, ending⟩ := part
    rw [List.flatMap_cons] at found
    by_cases inText : offset < text.length
    · exact ⟨⟨start, text, ending⟩, List.mem_cons_self, Nat.le_add_right _ _,
        Nat.add_lt_add_left inText _⟩
    · by_cases inPart : offset < (partText (text, ending)).length
      · rw [List.getElem?_append_left inPart, partText,
          List.getElem?_append_right (Nat.le_of_not_lt inText)] at found
        -- The unit would be one of the ending of the part.
        cases ending with
        | none => exact absurd found (by simp)
        | some newline =>
          rcases newline.mem_text unit (List.mem_of_getElem? found) with feed | return'
          · exact absurd feed notFeed
          · exact absurd return' notReturn
      · rw [List.getElem?_append_right (Nat.le_of_not_lt inPart)] at found
        obtain ⟨line, member, covers⟩ :=
          inductionHypothesis (start + (partText (text, ending)).length) _ found
        refine ⟨line, List.mem_cons_of_mem _ member, ?_⟩
        rwa [Nat.add_assoc, Nat.add_sub_cancel' (Nat.le_of_not_lt inPart)] at covers

namespace Lines

variable (content : Text)

@[simp] theorem content_ofText : (ofText content).content = content := rfl

/-- Lines do not touch: between two lines there is at least one unit. -/
theorem stop_lt_start :
    (ofText content).all.Pairwise fun earlier later => earlier.stop < later.start :=
  placeLines_pairwise 0 _ (physicalLines_pairwise content)

theorem stop_le_length (line : Line) (member : line ∈ (ofText content).all) :
    line.stop ≤ content.length := by
  have bound := stop_le_of_mem_placeLines 0 _ line member
  rwa [flatMap_physicalLines, Nat.zero_add] at bound

/-- A unit that ends no line lies in a line. -/
theorem exists_line_of_unit (position : Nat) (unit : CodeUnit)
    (found : content[position]? = some unit) (notFeed : unit ≠ 0x0A) (notReturn : unit ≠ 0x0D) :
    ∃ line ∈ (ofText content).all, line.span.Covers position := by
  rw [← flatMap_physicalLines content] at found
  obtain ⟨line, member, covers⟩ := exists_mem_placeLines 0 _ position unit found notFeed notReturn
  rw [Nat.zero_add] at covers
  exact ⟨line, member, covers⟩

/-- Every line before one that reaches a position stops before that position. -/
theorem stop_lt_of_index_lt (earlier later : Nat) (less : earlier < later) (line next : Line)
    (earlierLine : (ofText content).all[earlier]? = some line)
    (laterLine : (ofText content).all[later]? = some next) : line.stop < next.start := by
  obtain ⟨bound, rfl⟩ := List.getElem?_eq_some_iff.mp laterLine
  obtain ⟨_, rfl⟩ := List.getElem?_eq_some_iff.mp earlierLine
  exact List.pairwise_iff_getElem.mp (stop_lt_start content) earlier later _ bound less

/-- Two lines of which neither stops before the other starts are one line. -/
theorem eq_of_touching (line next : Line) (lineMember : line ∈ (ofText content).all)
    (nextMember : next ∈ (ofText content).all) (forward : line.start ≤ next.stop)
    (backward : next.start ≤ line.stop) : line = next := by
  refine List.Pairwise.forall_of_forall_of_flip
    (R := fun line next => line.start ≤ next.stop → next.start ≤ line.stop → line = next)
    (fun _ _ _ _ => rfl) ?_ ?_ lineMember nextMember forward backward
  · exact (stop_lt_start content).imp fun apart _ touching =>
      absurd touching (Nat.not_le_of_lt apart)
  · exact (stop_lt_start content).imp fun apart touching _ =>
      absurd touching (Nat.not_le_of_lt apart)

/-- The search finds the line that holds a position, wherever between its bounds that line is: no
half that it leaves has the line, since lines do not touch. -/
theorem holding?_eq_some (number : Nat) (line : Line)
    (found : (ofText content).all[number]? = some line) (position : Int)
    (after : line.start ≤ position) (before : position ≤ line.stop) (low high : Nat)
    (fromLow : low ≤ number) (toHigh : number < high) :
    holding? (ofText content).all.toArray position low high = some number := by
  have apart := stop_lt_of_index_lt content
  have properLine := line.start_le_stop
  fun_induction holding? (ofText content).all.toArray position low high with
  | case1 low high less middle other here below inductionHypothesis =>
    rw [List.getElem?_toArray] at here
    refine inductionHypothesis fromLow ?_
    rcases Nat.lt_trichotomy number middle with isLess | same | isMore
    · exact isLess
    · cases (same ▸ found).symm.trans here
      omega
    · have gap := apart middle number isMore other line here found
      have proper := other.start_le_stop
      omega
  | case2 low high less middle other here notBelow above inductionHypothesis =>
    rw [List.getElem?_toArray] at here
    refine inductionHypothesis ?_ toHigh
    rcases Nat.lt_trichotomy number middle with isLess | same | isMore
    · have gap := apart number middle isLess line other found here
      have proper := other.start_le_stop
      omega
    · cases (same ▸ found).symm.trans here
      omega
    · exact isMore
  | case3 low high less middle other here notBelow notAbove =>
    rw [List.getElem?_toArray] at here
    rcases Nat.lt_trichotomy number middle with isLess | same | isMore
    · have gap := apart number middle isLess line other found here
      omega
    · rw [same]
    · have gap := apart middle number isMore other line here found
      omega
  | case4 low high less middle none inductionHypothesis =>
    rw [List.getElem?_toArray, List.getElem?_eq_none_iff] at none
    have inside := (List.getElem?_eq_some_iff.mp found).1
    exact inductionHypothesis fromLow (Nat.lt_of_lt_of_le inside none)
  | case5 low high notLess => exact absurd (Nat.lt_of_le_of_lt fromLow toHigh) notLess

/-- The look-up of a position finds the line that holds it, its stop included. -/
theorem lineAt_eq_ok (number : Nat) (line : Line)
    (found : (ofText content).all[number]? = some line) (position : Nat)
    (after : line.start ≤ position) (before : position ≤ line.stop) :
    (ofText content).lineAt position = .ok number := by
  obtain ⟨bound, rfl⟩ := List.getElem?_eq_some_iff.mp found
  have inside : position ≤ content.length :=
    Nat.le_trans before (stop_le_length content _ (List.getElem_mem bound))
  have searched := holding?_eq_some content number _ found position (Int.ofNat_le.mpr after)
    (Int.ofNat_le.mpr before) 0 _ (Nat.zero_le _) bound
  have possible : ¬((position : Int) < 0 ∨ (position : Int) > content.length) := by
    omega
  rw [lineAt, content_ofText, if_neg possible, searched]

end Lines

end SourceLint
