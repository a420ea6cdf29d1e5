/-
This file proves that the byte sequences that decode strictly are the well-formed ones. The table of
well-formed sequences has one row for each way to begin a sequence, with the bounds of each of its
bytes: overlong forms, surrogates and values beyond the last plane are kept out by the bounds of the
second byte. The machine that reads bytes takes the sequences of each row whole, and whatever scalar
values it reads, their encodings are in the table.
-/
import Mathlib.Data.List.Forall2
import SourceLint.Proofs.Text.Utf8

namespace SourceLint.Text

/-- The rows of the table of well-formed sequences: the least and the greatest value of each byte.
-/
def sequenceRows : List (List (UInt8 × UInt8)) :=
  [[(0x00, 0x7F)],
    [(0xC2, 0xDF), (0x80, 0xBF)],
    [(0xE0, 0xE0), (0xA0, 0xBF), (0x80, 0xBF)],
    [(0xE1, 0xEC), (0x80, 0xBF), (0x80, 0xBF)],
    [(0xED, 0xED), (0x80, 0x9F), (0x80, 0xBF)],
    [(0xEE, 0xEF), (0x80, 0xBF), (0x80, 0xBF)],
    [(0xF0, 0xF0), (0x90, 0xBF), (0x80, 0xBF), (0x80, 0xBF)],
    [(0xF1, 0xF3), (0x80, 0xBF), (0x80, 0xBF), (0x80, 0xBF)],
    [(0xF4, 0xF4), (0x80, 0x8F), (0x80, 0xBF), (0x80, 0xBF)]]

/-- A byte within bounds. -/
def Within (byte : UInt8) (bounds : UInt8 × UInt8) : Prop := bounds.1 ≤ byte ∧ byte ≤ bounds.2

instance (byte : UInt8) (bounds : UInt8 × UInt8) : Decidable (Within byte bounds) :=
  inferInstanceAs (Decidable (_ ∧ _))

/-- Well-formed bytes: one sequence of the table after another. -/
inductive WellFormed : List UInt8 → Prop
  | nil : WellFormed []
  | append {sequence rest : List UInt8} {row : List (UInt8 × UInt8)} (isRow : row ∈ sequenceRows)
      (fits : List.Forall₂ Within sequence row) (more : WellFormed rest) :
      WellFormed (sequence ++ rest)

/-! ### The sequences of the table are read whole -/

theorem Within.toNat {byte low high : UInt8} (within : Within byte (low, high)) :
    low.toNat ≤ byte.toNat ∧ byte.toNat ≤ high.toNat :=
  ⟨UInt8.le_iff_toNat_le.mp within.1, UInt8.le_iff_toNat_le.mp within.2⟩

theorem Within.eq {byte value : UInt8} (within : Within byte (value, value)) : byte = value :=
  UInt8.le_antisymm within.2 within.1

/-- Bytes within the bounds of a sequence that has begun complete it. -/
theorem exists_piecesFrom_some (pending : Pending) (second : UInt8)
    (within : Within second (pending.low, pending.high)) (tail : List UInt8)
    (fits : List.Forall₂ Within tail (List.replicate pending.later (0x80, 0xBF)))
    (rest : List UInt8) :
    ∃ value, piecesFrom (some pending) (second :: tail ++ rest) =
      some value :: piecesFrom none rest := by
  obtain ⟨later, low, high, value⟩ := pending
  have bounds : (decide (low ≤ second) && decide (second ≤ high)) = true := by
    rw [Bool.and_eq_true, decide_eq_true_eq, decide_eq_true_eq]
    exact within
  induction later generalizing low high value second tail with
  | zero =>
    cases fits
    rw [List.cons_append, piecesFrom, if_pos bounds]
    exact ⟨_, rfl⟩
  | succ later inductionHypothesis =>
    cases fits with
    | cons third others =>
      rw [List.cons_append, piecesFrom, if_pos bounds]
      refine inductionHypothesis _ _ _ _ _ third others ?_
      rw [Bool.and_eq_true, decide_eq_true_eq, decide_eq_true_eq]
      exact third

/-- A first byte with bytes behind it within the bounds that it sets is read whole. -/
theorem exists_piecesFrom_of_pending {first : UInt8} (pending : Pending)
    (begins : Lead.ofByte first = .pending pending) {second : UInt8}
    (within : Within second (pending.low, pending.high)) {tail : List UInt8}
    (fits : List.Forall₂ Within tail (List.replicate pending.later (0x80, 0xBF)))
    (rest : List UInt8) :
    ∃ value, piecesFrom none (first :: second :: tail ++ rest) =
      some value :: piecesFrom none rest := by
  rw [List.cons_append, piecesFrom, begins]
  exact exists_piecesFrom_some pending second within tail fits rest

theorem Lead.ofByte_one {byte : UInt8} (below : byte.toNat ≤ 0x7F) :
    ofByte byte = .scalar byte.toNat := if_pos (UInt8.le_iff_toNat_le.mpr below)

theorem Lead.ofByte_two {byte : UInt8} (bounds : 0xC2 ≤ byte.toNat ∧ byte.toNat ≤ 0xDF) :
    ofByte byte = .pending ⟨0, 0x80, 0xBF, byte.toNat - 0xC0⟩ := by
  simp only [ofByte, UInt8.le_iff_toNat_le, ← UInt8.toNat_inj, UInt8.reduceToNat,
    Bool.and_eq_true, decide_eq_true_eq]
  rw [if_neg (by omega), if_pos (by omega)]

theorem Lead.ofByte_three {byte : UInt8} (bounds : 0xE1 ≤ byte.toNat ∧ byte.toNat ≤ 0xEF)
    (noSurrogate : byte.toNat ≠ 0xED) :
    ofByte byte = .pending ⟨1, 0x80, 0xBF, byte.toNat - 0xE0⟩ := by
  simp only [ofByte, UInt8.le_iff_toNat_le, ← UInt8.toNat_inj, UInt8.reduceToNat,
    Bool.and_eq_true, decide_eq_true_eq]
  rw [if_neg (by omega), if_neg (by omega), if_neg (by omega), if_neg (by omega),
    if_pos (by omega)]

theorem Lead.ofByte_four {byte : UInt8} (bounds : 0xF1 ≤ byte.toNat ∧ byte.toNat ≤ 0xF3) :
    ofByte byte = .pending ⟨2, 0x80, 0xBF, byte.toNat - 0xF0⟩ := by
  simp only [ofByte, UInt8.le_iff_toNat_le, ← UInt8.toNat_inj, UInt8.reduceToNat,
    Bool.and_eq_true, decide_eq_true_eq]
  rw [if_neg (by omega), if_neg (by omega), if_neg (by omega), if_neg (by omega),
    if_neg (by omega), if_neg (by omega), if_pos (by omega)]

/-- A sequence of the table is read as one scalar value. -/
theorem exists_piecesFrom_of_row {row : List (UInt8 × UInt8)} (isRow : row ∈ sequenceRows)
    {sequence : List UInt8} (fits : List.Forall₂ Within sequence row) (rest : List UInt8) :
    ∃ value, piecesFrom none (sequence ++ rest) = some value :: piecesFrom none rest := by
  simp only [sequenceRows, List.mem_cons, List.not_mem_nil, or_false] at isRow
  rcases isRow with rfl | rfl | rfl | rfl | rfl | rfl | rfl | rfl | rfl
  case inl =>
    cases fits with
    | @cons byte _ _ _ first none =>
      cases none
      refine ⟨byte.toNat, ?_⟩
      rw [List.singleton_append, piecesFrom, Lead.ofByte_one first.toNat.2]
  all_goals obtain _ | ⟨first, _ | ⟨second, others⟩⟩ := fits
  · exact exists_piecesFrom_of_pending _ (Lead.ofByte_two first.toNat) second others rest
  · cases first.eq
    exact exists_piecesFrom_of_pending ⟨1, 0xA0, 0xBF, 0⟩ rfl second others rest
  · have bounds := first.toNat
    refine exists_piecesFrom_of_pending _ (Lead.ofByte_three ?_ ?_) second others rest
    · exact ⟨bounds.1, Nat.le_trans bounds.2 (by decide)⟩
    · exact Nat.ne_of_lt (Nat.lt_of_le_of_lt bounds.2 (by decide))
  · cases first.eq
    exact exists_piecesFrom_of_pending ⟨1, 0x80, 0x9F, 0xD⟩ rfl second others rest
  · have bounds := first.toNat
    refine exists_piecesFrom_of_pending _ (Lead.ofByte_three ?_ ?_) second others rest
    · exact ⟨Nat.le_trans (by decide) bounds.1, bounds.2⟩
    · exact Nat.ne_of_gt (Nat.lt_of_lt_of_le (by decide) bounds.1)
  · cases first.eq
    exact exists_piecesFrom_of_pending ⟨2, 0x90, 0xBF, 0⟩ rfl second others rest
  · exact exists_piecesFrom_of_pending _ (Lead.ofByte_four first.toNat) second others rest
  · cases first.eq
    exact exists_piecesFrom_of_pending ⟨2, 0x80, 0x8F, 4⟩ rfl second others rest

theorem WellFormed.exists_pieces {bytes : List UInt8} (wellFormed : WellFormed bytes) :
    ∃ values : List Nat, (pieces bytes).mapM id = some values := by
  induction wellFormed with
  | nil => exact ⟨[], rfl⟩
  | append isRow fits more inductionHypothesis =>
    obtain ⟨values, others⟩ := inductionHypothesis
    obtain ⟨value, first⟩ := exists_piecesFrom_of_row isRow fits _
    refine ⟨value :: values, ?_⟩
    rw [pieces] at others ⊢
    rw [first, List.mapM_cons, others]
    rfl

/-! ### What is read is in the table -/

/-- A number within bounds, as a byte. -/
theorem within_toUInt8 (number low high : Nat) (bounds : low ≤ number ∧ number ≤ high)
    (isByte : high < 0x100) : Within number.toUInt8 (low.toUInt8, high.toUInt8) := by
  have toNat {other : Nat} (least : other ≤ high) : other.toUInt8.toNat = other :=
    Nat.mod_eq_of_lt (Nat.lt_of_le_of_lt least isByte)
  constructor
  · rw [UInt8.le_iff_toNat_le, toNat (Nat.le_trans bounds.1 bounds.2), toNat bounds.2]
    exact bounds.1
  · rw [UInt8.le_iff_toNat_le, toNat bounds.2, toNat (Nat.le_refl _)]
    exact bounds.2

theorem within_continuation (number : Nat) :
    Within (0x80 + number % 0x40).toUInt8 (0x80, 0xBF) :=
  within_toUInt8 _ 0x80 0xBF (by omega) (by decide)

/-- The bounds of the second byte keep out what two bytes can hold, and the surrogates. -/
theorem exists_row_three (scalar : Nat) (isScalar : IsScalar scalar)
    (bounds : 0x800 ≤ scalar ∧ scalar < 0x10000) :
    ∃ row ∈ sequenceRows, List.Forall₂ Within
      [(0xE0 + scalar / 0x1000).toUInt8, (0x80 + scalar / 0x40 % 0x40).toUInt8,
        (0x80 + scalar % 0x40).toUInt8] row := by
  unfold IsScalar at isScalar
  have second := within_continuation (scalar / 0x40)
  have third := within_continuation scalar
  by_cases low : scalar < 0x1000
  · refine ⟨[(0xE0, 0xE0), (0xA0, 0xBF), (0x80, 0xBF)], by decide,
      .cons ?_ (.cons ?_ (.cons third .nil))⟩
    · exact within_toUInt8 _ 0xE0 0xE0 (by omega) (by decide)
    · exact within_toUInt8 _ 0xA0 0xBF (by omega) (by decide)
  by_cases middle : scalar < 0xD000
  · refine ⟨[(0xE1, 0xEC), (0x80, 0xBF), (0x80, 0xBF)], by decide,
      .cons ?_ (.cons second (.cons third .nil))⟩
    exact within_toUInt8 _ 0xE1 0xEC (by omega) (by decide)
  by_cases beforeSurrogates : scalar < 0xD800
  · refine ⟨[(0xED, 0xED), (0x80, 0x9F), (0x80, 0xBF)], by decide,
      .cons ?_ (.cons ?_ (.cons third .nil))⟩
    · exact within_toUInt8 _ 0xED 0xED (by omega) (by decide)
    · exact within_toUInt8 _ 0x80 0x9F (by omega) (by decide)
  · refine ⟨[(0xEE, 0xEF), (0x80, 0xBF), (0x80, 0xBF)], by decide,
      .cons ?_ (.cons second (.cons third .nil))⟩
    exact within_toUInt8 _ 0xEE 0xEF (by omega) (by decide)

/-- The bounds of the second byte keep out what three bytes can hold, and what is beyond the last
plane. -/
theorem exists_row_four (scalar : Nat) (bounds : 0x10000 ≤ scalar ∧ scalar < 0x110000) :
    ∃ row ∈ sequenceRows, List.Forall₂ Within
      [(0xF0 + scalar / 0x40000).toUInt8, (0x80 + scalar / 0x1000 % 0x40).toUInt8,
        (0x80 + scalar / 0x40 % 0x40).toUInt8, (0x80 + scalar % 0x40).toUInt8] row := by
  have second := within_continuation (scalar / 0x1000)
  have third := within_continuation (scalar / 0x40)
  have fourth := within_continuation scalar
  by_cases low : scalar < 0x40000
  · refine ⟨[(0xF0, 0xF0), (0x90, 0xBF), (0x80, 0xBF), (0x80, 0xBF)], by decide,
      .cons ?_ (.cons ?_ (.cons third (.cons fourth .nil)))⟩
    · exact within_toUInt8 _ 0xF0 0xF0 (by omega) (by decide)
    · exact within_toUInt8 _ 0x90 0xBF (by omega) (by decide)
  by_cases middle : scalar < 0x100000
  · refine ⟨[(0xF1, 0xF3), (0x80, 0xBF), (0x80, 0xBF), (0x80, 0xBF)], by decide,
      .cons ?_ (.cons second (.cons third (.cons fourth .nil)))⟩
    exact within_toUInt8 _ 0xF1 0xF3 (by omega) (by decide)
  · refine ⟨[(0xF4, 0xF4), (0x80, 0x8F), (0x80, 0xBF), (0x80, 0xBF)], by decide,
      .cons ?_ (.cons ?_ (.cons third (.cons fourth .nil)))⟩
    · exact within_toUInt8 _ 0xF4 0xF4 (by omega) (by decide)
    · exact within_toUInt8 _ 0x80 0x8F (by omega) (by decide)

/-- The encoding of a scalar value is in the table. -/
theorem exists_row_encodeScalar (scalar : Nat) (isScalar : IsScalar scalar) :
    ∃ row ∈ sequenceRows, List.Forall₂ Within (encodeScalar scalar) row := by
  rw [encodeScalar]
  split
  · refine ⟨[(0x00, 0x7F)], by decide, .cons ?_ .nil⟩
    exact within_toUInt8 _ 0x00 0x7F (by omega) (by decide)
  split
  · refine ⟨[(0xC2, 0xDF), (0x80, 0xBF)], by decide,
      .cons ?_ (.cons (within_continuation _) .nil)⟩
    exact within_toUInt8 _ 0xC2 0xDF (by omega) (by decide)
  split
  · exact exists_row_three scalar isScalar (by omega)
  · unfold IsScalar at isScalar
    exact exists_row_four scalar (by omega)

theorem Encodes.wellFormed {scalars : List Nat} {bytes : List UInt8}
    (encodes : Encodes scalars bytes) : WellFormed bytes := by
  obtain ⟨areScalars, rfl⟩ := encodes
  induction scalars with
  | nil => exact .nil
  | cons scalar rest inductionHypothesis =>
    obtain ⟨first, others⟩ := List.forall_mem_cons.mp areScalars
    obtain ⟨row, isRow, fits⟩ := exists_row_encodeScalar scalar first
    rw [List.flatMap_cons]
    exact .append isRow fits (inductionHypothesis others)

/-- Bytes decode strictly exactly if they are well-formed. -/
theorem exists_decode?_iff (bytes : List UInt8) :
    (∃ text, decode? bytes = some text) ↔ WellFormed bytes := by
  constructor
  · rintro ⟨text, decodes⟩
    obtain ⟨values, whole, _⟩ := Option.map_eq_some_iff.mp decodes
    exact (encodes_of_piecesFrom [] none rfl bytes values whole).wellFormed
  · intro wellFormed
    obtain ⟨values, whole⟩ := wellFormed.exists_pieces
    exact ⟨_, Option.map_eq_some_iff.mpr ⟨values, whole, rfl⟩⟩

end SourceLint.Text
