/-
This file says that decimal digits and the number that they stand for go over into each other: a
number is read back from its digits, and digits without a leading zero are those of their number.
-/
import Mathlib.Data.List.Induction
import SourceLint.Text

namespace SourceLint

theorem CodeUnit.isDigit_iff (unit : CodeUnit) :
    unit.isDigit = true ↔ 0x30 ≤ unit.toNat ∧ unit.toNat ≤ 0x39 := by
  rw [isDigit, Bool.and_eq_true, decide_eq_true_eq, decide_eq_true_eq, UInt16.le_iff_toNat_le,
    UInt16.le_iff_toNat_le]
  rfl

/-- The unit of a digit. -/
theorem CodeUnit.toNat_digitChar (digit : Nat) (small : digit < 10) :
    (CodeUnit.ofChar digit.digitChar).toNat = 0x30 + digit := by
  have all : ∀ digit < 10, (CodeUnit.ofChar (Nat.digitChar digit)).toNat = 0x30 + digit := by decide
  exact all digit small

namespace Text

theorem ofNat_of_lt (number : Nat) (small : number < 10) :
    ofNat number = [CodeUnit.ofChar number.digitChar] := by
  rw [ofNat, Nat.toDigits_of_lt_base small]
  rfl

/-- The last digit of a number stands behind the others. -/
theorem ofNat_of_le (number : Nat) (large : 10 ≤ number) :
    ofNat number = ofNat (number / 10) ++ [CodeUnit.ofChar (number % 10).digitChar] := by
  rw [ofNat, Nat.toDigits_of_base_le (by decide) large, List.map_append]
  rfl

theorem digitsValue_concat (digits : Text) (digit : CodeUnit) :
    digitsValue (digits ++ [digit]) = digitsValue digits * 10 + (digit.toNat - 0x30) := by
  rw [digitsValue, digitsValue, List.foldl_append]
  rfl

/-- A number is read back from its digits. -/
theorem digitsValue_ofNat (number : Nat) : digitsValue (ofNat number) = number := by
  induction number using Nat.strongRecOn with
  | ind number inductionHypothesis =>
    by_cases small : number < 10
    · rw [ofNat_of_lt number small, ← List.nil_append [_], digitsValue_concat,
        CodeUnit.toNat_digitChar number small]
      simp [digitsValue]
    · have last := CodeUnit.toNat_digitChar (number % 10) (Nat.mod_lt _ (by decide))
      rw [ofNat_of_le number (Nat.le_of_not_lt small), digitsValue_concat,
        inductionHypothesis (number / 10) (by omega), last]
      omega

theorem isDigit_of_mem_ofNat (number : Nat) : ∀ unit ∈ ofNat number, unit.isDigit = true := by
  have isDigit (digit : Nat) (small : digit < 10) :
      (CodeUnit.ofChar digit.digitChar).isDigit = true := by
    rw [CodeUnit.isDigit_iff, CodeUnit.toNat_digitChar digit small]
    omega
  induction number using Nat.strongRecOn with
  | ind number inductionHypothesis =>
    by_cases small : number < 10
    · rw [ofNat_of_lt number small, List.forall_mem_singleton]
      exact isDigit number small
    · rw [ofNat_of_le number (Nat.le_of_not_lt small), List.forall_mem_append,
        List.forall_mem_singleton]
      exact ⟨inductionHypothesis (number / 10) (by omega), isDigit _ (Nat.mod_lt _ (by decide))⟩

/-- Digits with no zero in front are not those of zero. -/
theorem digitsValue_pos (digits : Text) (notEmpty : digits ≠ [])
    (areDigits : ∀ unit ∈ digits, unit.isDigit = true) (noZero : digits.head? ≠ some 0x30) :
    0 < digitsValue digits := by
  induction digits using List.reverseRecOn with
  | nil => exact absurd rfl notEmpty
  | append_singleton rest last inductionHypothesis =>
    obtain ⟨restDigits, isDigit⟩ := List.forall_mem_append.mp areDigits
    rw [digitsValue_concat]
    cases rest with
    | nil =>
      have bounds := (CodeUnit.isDigit_iff last).mp (isDigit last List.mem_cons_self)
      have notZero : last.toNat ≠ 0x30 := fun same =>
        noZero (congrArg some (UInt16.toNat_inj.mp same))
      omega
    | cons first others =>
      have positive := inductionHypothesis (List.cons_ne_nil _ _) restDigits noZero
      omega

/-- Digits with no zero in front are those of the number that they stand for. -/
theorem ofNat_digitsValue (digits : Text) (notEmpty : digits ≠ [])
    (areDigits : ∀ unit ∈ digits, unit.isDigit = true) (noZero : digits.head? ≠ some 0x30) :
    ofNat (digitsValue digits) = digits := by
  induction digits using List.reverseRecOn with
  | nil => exact absurd rfl notEmpty
  | append_singleton rest last inductionHypothesis =>
    obtain ⟨restDigits, isLast⟩ := List.forall_mem_append.mp areDigits
    have bounds := (CodeUnit.isDigit_iff last).mp (isLast last List.mem_cons_self)
    have lastDigit : CodeUnit.ofChar (last.toNat - 0x30).digitChar = last := by
      have value := CodeUnit.toNat_digitChar (last.toNat - 0x30) (by omega)
      exact UInt16.toNat_inj.mp (by omega)
    rw [digitsValue_concat]
    cases rest with
    | nil =>
      have value : digitsValue [] * 10 + (last.toNat - 0x30) = last.toNat - 0x30 := Nat.zero_add _
      rw [value, ofNat_of_lt _ (by omega), lastDigit]
      rfl
    | cons first others =>
      have positive := digitsValue_pos (first :: others) (List.cons_ne_nil _ _) restDigits noZero
      have same := inductionHypothesis (List.cons_ne_nil _ _) restDigits noZero
      generalize first :: others = rest at positive same ⊢
      have quotient : (digitsValue rest * 10 + (last.toNat - 0x30)) / 10 = digitsValue rest := by
        omega
      have remainder : (digitsValue rest * 10 + (last.toNat - 0x30)) % 10 = last.toNat - 0x30 := by
        omega
      rw [ofNat_of_le _ (by omega), quotient, remainder, same, lastDigit]

/-- A number of four digits has four of them. -/
theorem length_ofNat (number : Nat) (large : 1000 ≤ number) (small : number ≤ 9999) :
    (ofNat number).length = 4 := by
  rw [ofNat_of_le _ (by omega), ofNat_of_le _ (by omega), ofNat_of_le _ (by omega),
    ofNat_of_lt _ (by omega)]
  rfl

end Text

end SourceLint
