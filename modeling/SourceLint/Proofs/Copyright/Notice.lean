/-
This file says what a notice is made of. A notice that was read is three parts of its text, one
after another: what stands before the years, the years, and what follows them up to the name of the
holder. None of them has a unit that ends a line, so a notice lies in one line of its text.
-/
import SourceLint.Proofs.Copyright.Spelling
import SourceLint.Proofs.Lines.Lookup

namespace SourceLint

/-- What stands in a line and has no part of a line ending goes on in that line. -/
theorem Lines.add_length_le_stop (content : Text) (line : Line)
    (member : line ∈ (ofText content).all) (position : Nat) (after : line.start ≤ position)
    (before : position ≤ line.stop) (text rest : Text) (isOneLine : text.OneLine)
    (found : content.drop position = text ++ rest) : position + text.length ≤ line.stop := by
  induction text generalizing position with
  | nil => exact before
  | cons unit others inductionHypothesis =>
    obtain ⟨notBreak, othersOneLine⟩ := List.forall_mem_cons.mp isOneLine
    have here : content[position]? = some unit := by
      rw [← List.head?_drop, found]
      rfl
    obtain ⟨place, isLine, covers⟩ :=
      exists_line_of_unit content position unit here notBreak.1 notBreak.2
    have same : line = place := eq_of_touching content line place member isLine
      (Nat.le_trans after (Nat.le_of_lt covers.2)) (Nat.le_trans covers.1 before)
    have next := inductionHypothesis (position + 1) (Nat.le_succ_of_le after)
      (same ▸ covers.2) othersOneLine (by rw [← List.tail_drop, found]; rfl)
    rw [List.length_cons]
    omega

namespace Copyright.Notice

/-! ### The parts of a notice -/

/-- The parts of a notice that a text begins with. -/
structure Parts (text : Text) (notice : Notice) (lead years name rest : Text) : Prop where
  whole : text = lead ++ (years ++ (name ++ rest))
  lead_length : lead.length = notice.lead
  years_length : years.length = notice.yearsLength
  length_eq : lead.length + years.length + name.length = notice.length
  oneLine : Text.OneLine (lead ++ years ++ name)

theorem length_years (notice : Notice) :
    (notice.firstYear ++ notice.secondYear).length = notice.yearsLength := by
  rw [List.length_append, secondYear, yearsLength]
  cases notice.lastYear with
  | none => rfl
  | some year => rw [List.length_cons, Nat.add_comm year.length]

theorem exists_parts_of_read? (text : Text) (notice : Notice) (reads : read? text = some notice) :
    ∃ lead years name rest, Parts text notice lead years name rest := by
  obtain ⟨written, rest, rfl, isWritten⟩ := exists_written_of_read? _ _ reads
  have isOneLine := isWritten.isOneLine
  have length := isWritten.length
  obtain ⟨_, _, ⟨spelling, lead, rfl⟩, _⟩ := isWritten
  refine ⟨spelling.lead, notice.firstYear ++ notice.secondYear, spelling.name, rest, ?_, lead,
    length_years notice, ?_, ?_⟩
  · simp only [List.append_assoc]
  · rw [← length]
    simp only [List.length_append]
    omega
  · simpa only [List.append_assoc] using isOneLine

/-- Something stands before the years and something behind them. -/
theorem measures_of_read? (text : Text) (notice : Notice) (reads : read? text = some notice) :
    0 < notice.lead ∧ notice.firstYear.length = 4 ∧
      (∀ year, notice.lastYear = some year → year.length = 4) ∧
      notice.lead + notice.yearsLength < notice.length := by
  obtain ⟨written, rest, _, isWritten⟩ := exists_written_of_read? _ _ reads
  obtain ⟨isFirst, isLast, ⟨spelling, lead, whole⟩, length⟩ := isWritten
  have word : (Text.ofString "Copyright").length = 9 := by decide
  have name : (Text.ofString "NVIDIA C").length = 8 := by decide
  refine ⟨?_, isFirst.1, fun year isYear => (isLast year isYear).1, ?_⟩
  · rw [← lead, Spelling.lead, List.length_append, word]
    omega
  · have nameLength : 0 < spelling.name.length := by
      rw [Spelling.name]
      simp only [List.length_append, name]
      omega
    have years := length_years notice
    rw [← length, whole, ← lead]
    simp only [List.length_append] at years ⊢
    omega

end Copyright.Notice

end SourceLint
