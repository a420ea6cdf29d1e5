/-
The written form of a text between double quotes. Control characters are written as escapes, and so
are the halves of surrogate pairs without their partners, so that the written form holds neither
and may stand in a document whatever the text is.
-/
import SourceLint.Proofs.Text.Pairs
import SourceLint.Proofs.Text.Cut
import SourceLint.Text.Quoted

namespace SourceLint.Text

/-! ### Hexadecimal digits -/

/-- The value of a hexadecimal digit as it is written. -/
theorem hexValue_hexDigit {value : Nat} (isDigit : value < 16) :
    hexValue (hexDigit value) = value := by
  have each : ∀ value : Fin 16, hexValue (hexDigit value) = value := by decide
  exact each ⟨value, isDigit⟩

theorem isHexDigit_hexDigit {value : Nat} (isDigit : value < 16) :
    (hexDigit value).isHexDigit = true := by
  have each : ∀ value : Fin 16, (hexDigit value).isHexDigit = true := by decide
  exact each ⟨value, isDigit⟩

/-- A hexadecimal digit is a letter or digit of ASCII. -/
theorem bounds_of_isHexDigit {unit : CodeUnit} (isDigit : unit.isHexDigit = true) :
    0x30 ≤ unit.toNat ∧ unit.toNat ≤ 0x66 ∧ unit ≠ 0x5C := by
  simp only [CodeUnit.isHexDigit, CodeUnit.isDigit, Bool.or_eq_true, Bool.and_eq_true,
    decide_eq_true_eq, UInt16.le_iff_toNat_le, ne_eq, ← UInt16.toNat_inj,
    UInt16.reduceToNat] at isDigit ⊢
  omega

theorem isHexDigit_of_mem_hexDigits {unit digit : CodeUnit} (member : digit ∈ hexDigits unit) :
    digit.isHexDigit = true := by
  have bound := unit.toNat_lt
  simp only [hexDigits, List.mem_cons, List.not_mem_nil, or_false] at member
  obtain rfl | rfl | rfl | rfl := member
  all_goals exact isHexDigit_hexDigit (by omega)

theorem hexDigitsValue_hexDigits (unit : CodeUnit) :
    hexDigitsValue (hexDigits unit) = unit.toNat := by
  have bound := unit.toNat_lt
  rw [hexDigits, hexDigitsValue, List.foldl_cons, List.foldl_cons, List.foldl_cons, List.foldl_cons,
    List.foldl_nil, hexValue_hexDigit (by omega), hexValue_hexDigit (by omega),
    hexValue_hexDigit (by omega), hexValue_hexDigit (by omega)]
  omega

/-! ### The written form -/

/-- Induction along the written form of a text: it is written unit by unit, but for the surrogate
pairs, which are written as they are. -/
@[elab_as_elim]
theorem inductionOnEscaped {motive : Text → Text → Prop} (text : Text) (nil : motive [] [])
    (unit : ∀ unit rest, motive rest rest.escaped →
      motive (unit :: rest) (escapeUnit unit ++ rest.escaped))
    (pair : ∀ high low rest, high.isHighSurrogate = true → low.isLowSurrogate = true →
      motive rest rest.escaped → motive (high :: low :: rest) (high :: low :: rest.escaped)) :
    motive text text.escaped := by
  fun_induction escaped text with
  | case1 => exact nil
  | case2 only => exact List.append_nil (escapeUnit only) ▸ unit only [] nil
  | case3 high low rest arePair inductionHypothesis =>
    obtain ⟨isHigh, isLow⟩ := Bool.and_eq_true_iff.mp arePair
    exact pair high low rest isHigh isLow inductionHypothesis
  | case4 first next rest notPair inductionHypothesis =>
    exact unit first (next :: rest) inductionHypothesis

/-- What may stand between quotes: of the control characters only tabs, and surrogates in pairs. -/
def Quotable (text : Text) : Prop :=
  (∀ unit ∈ text, unit = 0x09 ∨ 0x20 ≤ unit) ∧ text.Paired

/-- Halves of surrogate pairs are no control characters. -/
theorem le_of_isSurrogate {unit : CodeUnit}
    (isHalf : unit.isHighSurrogate = true ∨ unit.isLowSurrogate = true) : 0xD800 ≤ unit.toNat := by
  simp only [CodeUnit.isHighSurrogate, CodeUnit.isLowSurrogate, Bool.and_eq_true, decide_eq_true_eq,
    UInt16.le_iff_toNat_le, UInt16.reduceToNat] at isHalf
  omega

/-- A unit of ASCII is a character of its own. -/
theorem isScalar_of_lt {unit : CodeUnit} (isAscii : unit.toNat < 0x80) : IsScalar unit.toNat :=
  .inl (by omega)

theorem paired_of_ascii {text : Text} (areAscii : ∀ unit ∈ text, unit.toNat < 0x80) :
    Paired text := by
  induction text with
  | nil => exact .nil
  | cons unit rest inductionHypothesis =>
    obtain ⟨isAscii, areAscii⟩ := List.forall_mem_cons.mp areAscii
    exact .unit (isScalar_of_lt isAscii) (inductionHypothesis areAscii)

/-- Nothing that the written form of a unit holds is a control character, and its surrogates are in
pairs. -/
theorem escapeUnit_spec (unit : CodeUnit) :
    (∀ written ∈ escapeUnit unit, 0x20 ≤ written) ∧ Paired (escapeUnit unit) := by
  have ofAscii : ∀ written : Text, (∀ unit ∈ written, 0x20 ≤ unit.toNat ∧ unit.toNat < 0x80) →
      (∀ unit ∈ written, 0x20 ≤ unit) ∧ Paired written := fun written areAscii =>
    ⟨fun unit member => UInt16.le_iff_toNat_le.mpr (areAscii unit member).1,
      paired_of_ascii fun unit member => (areAscii unit member).2⟩
  rw [escapeUnit]
  split_ifs with isQuote isBackslash isBackspace isTab isFeed isForm isReturn isNumbered
  iterate 7 exact ofAscii _ (by decide)
  · refine ofAscii _ (List.forall_mem_append.mpr ⟨by decide, fun digit member => ?_⟩)
    have bounds := bounds_of_isHexDigit (isHexDigit_of_mem_hexDigits member)
    omega
  · simp only [Bool.or_eq_true, decide_eq_true_eq, not_or, UInt16.not_lt, Bool.not_eq_true,
      CodeUnit.isHighSurrogate, CodeUnit.isLowSurrogate, Bool.and_eq_false_iff,
      decide_eq_false_iff_not, UInt16.le_iff_toNat_le, UInt16.reduceToNat] at isNumbered
    have bound := unit.toNat_lt
    refine ⟨List.forall_mem_singleton.mpr (UInt16.le_iff_toNat_le.mpr isNumbered.1.1), .unit ?_ .nil⟩
    unfold IsScalar
    omega

/-- No control character is written, tabs included, and surrogates only in pairs. -/
theorem escaped_spec (text : Text) :
    (∀ unit ∈ text.escaped, 0x20 ≤ unit) ∧ Paired text.escaped := by
  refine inductionOnEscaped text ⟨by simp, .nil⟩ ?_ ?_
  · intro unit rest inductionHypothesis
    obtain ⟨areAllowed, paired⟩ := escapeUnit_spec unit
    exact ⟨List.forall_mem_append.mpr ⟨areAllowed, inductionHypothesis.1⟩,
      paired.append inductionHypothesis.2⟩
  · intro high low rest isHigh isLow inductionHypothesis
    have highBound := le_of_isSurrogate (.inl isHigh)
    have lowBound := le_of_isSurrogate (.inr isLow)
    refine ⟨List.forall_mem_cons.mpr ⟨?_, List.forall_mem_cons.mpr ⟨?_, inductionHypothesis.1⟩⟩,
      .pair isHigh isLow inductionHypothesis.2⟩
    · exact UInt16.le_iff_toNat_le.mpr (Nat.le_trans (by decide : 0x20 ≤ 0xD800) highBound)
    · exact UInt16.le_iff_toNat_le.mpr (Nat.le_trans (by decide : 0x20 ≤ 0xD800) lowBound)

/-- What is no control character is on one line. -/
theorem isOneLine_of_le {text : Text} (areAllowed : ∀ unit ∈ text, 0x20 ≤ unit) : text.OneLine := by
  intro unit member
  refine ⟨?_, ?_⟩
  all_goals
    rintro rfl
    exact absurd (areAllowed _ member) (by decide)

end SourceLint.Text
