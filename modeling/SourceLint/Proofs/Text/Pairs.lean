/-
This file says where a text may be cut so that the bytes of its parts are the parts of its bytes. A
position in a text counts units of sixteen bits, and a character beyond the basic plane has two of
them, which have a UTF-8 form together only. So the UTF-8 form of parts one after another is that of
the whole if each part has all of its surrogates in pairs, and cutting such a text leaves such parts
unless the cut is within a pair.
-/
import SourceLint.Proofs.Text.Utf8

namespace SourceLint.Text

/-- A text all of whose surrogates are in pairs. -/
inductive Paired : Text → Prop
  | nil : Paired []
  | unit {unit : CodeUnit} {rest : Text} (isScalar : IsScalar unit.toNat) (more : Paired rest) :
      Paired (unit :: rest)
  | pair {high low : CodeUnit} {rest : Text} (isHigh : high.isHighSurrogate = true)
      (isLow : low.isLowSurrogate = true) (more : Paired rest) : Paired (high :: low :: rest)

/-- A position lies between the two halves of a surrogate pair. -/
def SplitsPair (text : Text) (position : Nat) : Prop :=
  0 < position ∧ text[position - 1]?.any CodeUnit.isHighSurrogate = true ∧
    text[position]?.any CodeUnit.isLowSurrogate = true

instance (text : Text) (position : Nat) : Decidable (text.SplitsPair position) :=
  inferInstanceAs (Decidable (_ ∧ _))

theorem not_splitsPair_zero (text : Text) : ¬text.SplitsPair 0 := fun splits =>
  absurd splits.1 (Nat.lt_irrefl 0)

/-- A position that splits a pair does so behind any unit. -/
theorem SplitsPair.cons {text : Text} {position : Nat} (splits : text.SplitsPair position)
    (unit : CodeUnit) : SplitsPair (unit :: text) (position + 1) := by
  obtain ⟨positive, before, here⟩ := splits
  obtain ⟨previous, rfl⟩ := Nat.exists_eq_succ_of_ne_zero (Nat.ne_of_gt positive)
  exact ⟨Nat.succ_pos _, before, here⟩

theorem SplitsPair.of_drop {text : Text} {position count : Nat}
    (splits : SplitsPair (text.drop position) count) : text.SplitsPair (position + count) := by
  obtain ⟨positive, before, here⟩ := splits
  rw [List.getElem?_drop] at before here
  refine ⟨by omega, ?_, here⟩
  rwa [Nat.add_sub_assoc positive]

namespace Paired

variable {text : Text}

theorem append {other : Text} (paired : Paired text) (others : Paired other) :
    Paired (text ++ other) := by
  induction paired with
  | nil => exact others
  | unit isScalar _ inductionHypothesis => exact .unit isScalar inductionHypothesis
  | pair isHigh isLow _ inductionHypothesis => exact .pair isHigh isLow inductionHypothesis

/-- Where no pair is split, the parts have their surrogates in pairs as the text has. -/
theorem take_drop (paired : Paired text) (position : Nat) (whole : ¬text.SplitsPair position) :
    Paired (text.take position) ∧ Paired (text.drop position) := by
  induction paired generalizing position with
  | nil => rw [List.take_nil, List.drop_nil]; exact ⟨.nil, .nil⟩
  | @unit unit rest isScalar more inductionHypothesis =>
    cases position with
    | zero => exact ⟨.nil, .unit isScalar more⟩
    | succ position =>
      obtain ⟨front, back⟩ := inductionHypothesis position fun splits => whole (splits.cons unit)
      exact ⟨.unit isScalar front, back⟩
  | @pair high low rest isHigh isLow more inductionHypothesis =>
    rcases position with _ | _ | position
    · exact ⟨.nil, .pair isHigh isLow more⟩
    · exact absurd ⟨Nat.one_pos, isHigh, isLow⟩ whole
    · obtain ⟨front, back⟩ := inductionHypothesis position
        fun splits => whole ((splits.cons low).cons high)
      exact ⟨.pair isHigh isLow front, back⟩

theorem slice (paired : Paired text) {start stop : Nat} (wholeStart : ¬text.SplitsPair start)
    (wholeStop : ¬text.SplitsPair stop) : Paired (text.slice start stop) := by
  rw [Text.slice]
  by_cases forward : start ≤ stop
  · refine ((paired.take_drop start wholeStart).2.take_drop _ fun splits => wholeStop ?_).1
    exact Nat.add_sub_cancel' forward ▸ splits.of_drop
  · rw [Nat.sub_eq_zero_of_le (by omega), List.take_zero]
    exact .nil

/-- The bytes of such a text come before those of what follows it. -/
theorem encode_append (paired : Paired text) (other : Text) :
    encode (text ++ other) = encode text ++ encode other := by
  induction paired with
  | nil => rfl
  | unit isScalar _ inductionHypothesis =>
    rw [encode, encode] at inductionHypothesis
    rw [List.cons_append, encode, encode, scalars_cons _ isScalar, scalars_cons _ isScalar,
      List.flatMap_cons, List.flatMap_cons, inductionHypothesis, List.append_assoc]
  | pair isHigh isLow _ inductionHypothesis =>
    rw [isHighSurrogate_iff] at isHigh
    rw [isLowSurrogate_iff] at isLow
    rw [encode, encode] at inductionHypothesis
    rw [List.cons_append, List.cons_append, encode, encode, scalars_pair _ _ isHigh isLow,
      scalars_pair _ _ isHigh isLow, List.flatMap_cons, List.flatMap_cons, inductionHypothesis,
      List.append_assoc]

end Paired

/-- The units of scalar values have their surrogates in pairs. -/
theorem paired_flatMap_ofScalar (values : List Nat)
    (areScalars : ∀ value ∈ values, IsScalar value) : Paired (values.flatMap ofScalar) := by
  induction values with
  | nil => exact .nil
  | cons value rest inductionHypothesis =>
    obtain ⟨first, others⟩ := List.forall_mem_cons.mp areScalars
    rw [List.flatMap_cons]
    refine Paired.append ?_ (inductionHypothesis others)
    rw [ofScalar]
    split
    case isTrue basic =>
      exact .unit ((toNat_toUInt16 value basic).symm ▸ first) .nil
    case isFalse beyond =>
      unfold IsScalar at first
      refine .pair ?_ ?_ .nil
      · rw [isHighSurrogate_iff, toNat_toUInt16 _ (by omega)]
        omega
      · rw [isLowSurrogate_iff, toNat_toUInt16 _ (by omega)]
        omega

theorem paired_of_decode? (bytes : List UInt8) (text : Text) (decodes : decode? bytes = some text) :
    Paired text := by
  obtain ⟨values, whole, rfl⟩ := Option.map_eq_some_iff.mp decodes
  exact paired_flatMap_ofScalar values (encodes_of_piecesFrom [] none rfl bytes values whole).1

end SourceLint.Text
