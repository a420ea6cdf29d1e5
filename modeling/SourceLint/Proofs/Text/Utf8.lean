/-
This file proves that nothing is lost when bytes are read strictly: the text they decode to has
these bytes as its UTF-8 form. A sequence that has begun owes a known number of continuation bytes,
and the invariant says of its first bytes that whatever completes them within the bounds completes
the encoding of a scalar value.
-/
import SourceLint.Text.Utf8

namespace SourceLint.Text

/-- A Unicode scalar value: a code point that is not a surrogate. -/
def IsScalar (value : Nat) : Prop := value < 0xD800 ∨ 0xE000 ≤ value ∧ value < 0x110000

/-! ### The bytes of a scalar value -/

theorem toUInt8_of_eq_toNat (number : Nat) (byte : UInt8) (same : number = byte.toNat) :
    number.toUInt8 = byte := by
  subst same
  exact UInt8.ofNat_toNat

theorem encodeScalar_one (first : UInt8) (below : first.toNat < 0x80) :
    encodeScalar first.toNat = [first] := by
  rw [encodeScalar, if_pos below]
  exact congrArg (fun byte => [byte]) UInt8.ofNat_toNat

theorem encodeScalar_two (first second : UInt8)
    (firstBounds : 0xC2 ≤ first.toNat ∧ first.toNat ≤ 0xDF)
    (secondBounds : 0x80 ≤ second.toNat ∧ second.toNat ≤ 0xBF) :
    encodeScalar ((first.toNat - 0xC0) * 0x40 + (second.toNat - 0x80)) = [first, second] := by
  rw [encodeScalar, if_neg (by omega), if_pos (by omega),
    toUInt8_of_eq_toNat _ first (by omega), toUInt8_of_eq_toNat _ second (by omega)]

theorem encodeScalar_three (first second third : UInt8) (value : Nat)
    (value_eq : value = ((first.toNat - 0xE0) * 0x40 + (second.toNat - 0x80)) * 0x40 +
      (third.toNat - 0x80))
    (firstBounds : 0xE0 ≤ first.toNat ∧ first.toNat ≤ 0xEF)
    (secondBounds : 0x80 ≤ second.toNat ∧ second.toNat ≤ 0xBF)
    (thirdBounds : 0x80 ≤ third.toNat ∧ third.toNat ≤ 0xBF) (shortest : 0x800 ≤ value) :
    encodeScalar value = [first, second, third] := by
  rw [encodeScalar, if_neg (by omega), if_neg (by omega), if_pos (by omega),
    toUInt8_of_eq_toNat _ first (by omega), toUInt8_of_eq_toNat _ second (by omega),
    toUInt8_of_eq_toNat _ third (by omega)]

theorem encodeScalar_four (first second third fourth : UInt8) (value : Nat)
    (value_eq : value = (((first.toNat - 0xF0) * 0x40 + (second.toNat - 0x80)) * 0x40 +
      (third.toNat - 0x80)) * 0x40 + (fourth.toNat - 0x80))
    (firstBounds : 0xF0 ≤ first.toNat ∧ first.toNat ≤ 0xF4)
    (secondBounds : 0x80 ≤ second.toNat ∧ second.toNat ≤ 0xBF)
    (thirdBounds : 0x80 ≤ third.toNat ∧ third.toNat ≤ 0xBF)
    (fourthBounds : 0x80 ≤ fourth.toNat ∧ fourth.toNat ≤ 0xBF) (shortest : 0x10000 ≤ value) :
    encodeScalar value = [first, second, third, fourth] := by
  rw [encodeScalar, if_neg (by omega), if_neg (by omega), if_neg (by omega),
    toUInt8_of_eq_toNat _ first (by omega), toUInt8_of_eq_toNat _ second (by omega),
    toUInt8_of_eq_toNat _ third (by omega), toUInt8_of_eq_toNat _ fourth (by omega)]

/-! ### Sequences that have begun -/

/-- Whatever completes the bytes taken so far, within the bounds, makes them the bytes of a scalar
value. -/
def Completes (taken : List UInt8) : (later : Nat) → (low high : UInt8) → (value : Nat) → Prop
  | 0, low, high, value =>
    ∀ byte, low ≤ byte → byte ≤ high →
      IsScalar (value * 0x40 + (byte.toNat - 0x80)) ∧
        encodeScalar (value * 0x40 + (byte.toNat - 0x80)) = taken ++ [byte]
  | later + 1, low, high, value =>
    ∀ byte, low ≤ byte → byte ≤ high →
      Completes (taken ++ [byte]) later 0x80 0xBF (value * 0x40 + (byte.toNat - 0x80))

theorem completes_two (first : UInt8) (bounds : 0xC2 ≤ first.toNat ∧ first.toNat ≤ 0xDF) :
    Completes [first] 0 0x80 0xBF (first.toNat - 0xC0) := by
  intro second low high
  have low : 0x80 ≤ second.toNat := UInt8.le_iff_toNat_le.mp low
  have high : second.toNat ≤ 0xBF := UInt8.le_iff_toNat_le.mp high
  exact ⟨by unfold IsScalar; omega, encodeScalar_two first second bounds ⟨low, high⟩⟩

theorem completes_three (first low high : UInt8)
    (bounds : 0xE0 ≤ first.toNat ∧ first.toNat ≤ 0xEF)
    (lowBound : 0x80 ≤ low.toNat) (highBound : high.toNat ≤ 0xBF)
    (shortest : first.toNat = 0xE0 → 0xA0 ≤ low.toNat)
    (noSurrogate : first.toNat = 0xED → high.toNat ≤ 0x9F) :
    Completes [first] 1 low high (first.toNat - 0xE0) := by
  intro second secondLow secondHigh third thirdLow thirdHigh
  have secondLow := UInt8.le_iff_toNat_le.mp secondLow
  have secondHigh := UInt8.le_iff_toNat_le.mp secondHigh
  have thirdLow : 0x80 ≤ third.toNat := UInt8.le_iff_toNat_le.mp thirdLow
  have thirdHigh : third.toNat ≤ 0xBF := UInt8.le_iff_toNat_le.mp thirdHigh
  refine ⟨by unfold IsScalar; omega, ?_⟩
  exact encodeScalar_three first second third _ rfl bounds (by omega) (by omega) (by omega)

theorem completes_four (first low high : UInt8)
    (bounds : 0xF0 ≤ first.toNat ∧ first.toNat ≤ 0xF4)
    (lowBound : 0x80 ≤ low.toNat) (highBound : high.toNat ≤ 0xBF)
    (shortest : first.toNat = 0xF0 → 0x90 ≤ low.toNat)
    (largest : first.toNat = 0xF4 → high.toNat ≤ 0x8F) :
    Completes [first] 2 low high (first.toNat - 0xF0) := by
  intro second secondLow secondHigh third thirdLow thirdHigh fourth fourthLow fourthHigh
  have secondLow := UInt8.le_iff_toNat_le.mp secondLow
  have secondHigh := UInt8.le_iff_toNat_le.mp secondHigh
  have thirdLow : 0x80 ≤ third.toNat := UInt8.le_iff_toNat_le.mp thirdLow
  have thirdHigh : third.toNat ≤ 0xBF := UInt8.le_iff_toNat_le.mp thirdHigh
  have fourthLow : 0x80 ≤ fourth.toNat := UInt8.le_iff_toNat_le.mp fourthLow
  have fourthHigh : fourth.toNat ≤ 0xBF := UInt8.le_iff_toNat_le.mp fourthHigh
  refine ⟨by unfold IsScalar; omega, ?_⟩
  exact encodeScalar_four first second third fourth _ rfl bounds (by omega) (by omega) (by omega)
    (by omega)

/-- What a first byte begins, its encoding ends. -/
theorem encoded_of_ofByte (byte : UInt8) :
    match Lead.ofByte byte with
    | .scalar value => IsScalar value ∧ encodeScalar value = [byte]
    | .pending pending =>
      Completes [byte] pending.later pending.low pending.high pending.value
    | .malformed => True := by
  generalize whole : Lead.ofByte byte = lead
  rw [Lead.ofByte] at whole
  simp only [Bool.and_eq_true, decide_eq_true_eq, UInt8.le_iff_toNat_le, ← UInt8.toNat_inj,
    UInt8.reduceToNat] at whole
  split at whole
  case isTrue below =>
    subst whole
    exact ⟨by unfold IsScalar; omega, encodeScalar_one byte (by omega)⟩
  split at whole
  case isTrue bounds =>
    subst whole
    exact completes_two byte bounds
  split at whole
  case isTrue same =>
    subst whole
    have completes := completes_three byte 0xA0 0xBF (by omega) (by decide) (by decide)
      (fun _ => by decide) (by omega)
    rwa [same] at completes
  split at whole
  case isTrue same =>
    subst whole
    have completes := completes_three byte 0x80 0x9F (by omega) (by decide) (by decide) (by omega)
      (fun _ => by decide)
    rwa [same] at completes
  split at whole
  case isTrue bounds =>
    subst whole
    exact completes_three byte 0x80 0xBF (by omega) (by decide) (by decide) (by omega) (by omega)
  split at whole
  case isTrue same =>
    subst whole
    have completes := completes_four byte 0x90 0xBF (by omega) (by decide) (by decide)
      (fun _ => by decide) (by omega)
    rwa [same] at completes
  split at whole
  case isTrue bounds =>
    subst whole
    exact completes_four byte 0x80 0xBF (by omega) (by decide) (by decide) (by omega) (by omega)
  split at whole
  case isTrue same =>
    subst whole
    have completes := completes_four byte 0x80 0x8F (by omega) (by decide) (by decide) (by omega)
      (fun _ => by decide)
    rwa [same] at completes
  case isFalse =>
    subst whole
    trivial

/-! ### The bytes of what was read -/

/-- The bytes taken since the last piece, with the sequence they have begun. -/
def Begun (taken : List UInt8) : Option Pending → Prop
  | none => taken = []
  | some pending => Completes taken pending.later pending.low pending.high pending.value

/-- Scalar values whose encodings are the given bytes. -/
def Encodes (scalars : List Nat) (bytes : List UInt8) : Prop :=
  (∀ scalar ∈ scalars, IsScalar scalar) ∧ scalars.flatMap encodeScalar = bytes

theorem Encodes.cons (scalar : Nat) (scalars : List Nat) (first rest : List UInt8)
    (isScalar : IsScalar scalar) (encoded : encodeScalar scalar = first)
    (others : Encodes scalars rest) : Encodes (scalar :: scalars) (first ++ rest) :=
  ⟨List.forall_mem_cons.mpr ⟨isScalar, others.1⟩, by rw [List.flatMap_cons, encoded, others.2]⟩

/-- A sequence of pieces without an ill-formed part that begins with a scalar value. -/
theorem mapM_cons_some (value : Nat) (pieces : List (Option Nat)) (scalars : List Nat)
    (whole : (some value :: pieces).mapM id = some scalars) :
    ∃ others, pieces.mapM id = some others ∧ scalars = value :: others := by
  rw [List.mapM_cons] at whole
  cases rest : pieces.mapM id with
  | none => simp [rest] at whole
  | some others =>
    rw [rest] at whole
    cases whole
    exact ⟨others, rfl, rfl⟩

theorem mapM_cons_none (pieces : List (Option Nat)) (scalars : List Nat) :
    (none :: pieces).mapM id ≠ some scalars := by
  simp

/-- If bytes are read without an ill-formed part then the scalar values encode them, after those
taken before. -/
theorem encodes_of_piecesFrom (taken : List UInt8) (pending : Option Pending)
    (begun : Begun taken pending) (bytes : List UInt8) (scalars : List Nat)
    (whole : (piecesFrom pending bytes).mapM id = some scalars) :
    Encodes scalars (taken ++ bytes) := by
  fun_induction piecesFrom pending bytes generalizing taken scalars with
  | case1 =>
    cases begun
    cases whole
    exact ⟨by simp, rfl⟩
  | case2 => exact absurd whole (mapM_cons_none _ _)
  | case3 byte rest value lead inductionHypothesis =>
    cases begun
    obtain ⟨others, restWhole, rfl⟩ := mapM_cons_some value _ scalars whole
    have encoded := encoded_of_ofByte byte
    rw [lead] at encoded
    exact Encodes.cons value others [byte] rest encoded.1 encoded.2
      (inductionHypothesis [] rfl others restWhole)
  | case4 byte rest next lead inductionHypothesis =>
    cases begun
    have encoded := encoded_of_ofByte byte
    rw [lead] at encoded
    exact inductionHypothesis [byte] encoded scalars whole
  | case5 => exact absurd whole (mapM_cons_none _ _)
  | case6 pending byte rest bounds value last inductionHypothesis =>
    obtain ⟨others, restWhole, rfl⟩ := mapM_cons_some value _ scalars whole
    rw [Bool.and_eq_true, decide_eq_true_eq, decide_eq_true_eq] at bounds
    rw [Begun, last] at begun
    obtain ⟨isScalar, encoded⟩ := begun byte bounds.1 bounds.2
    rw [List.append_cons]
    exact Encodes.cons value others (taken ++ [byte]) rest isScalar encoded
      (inductionHypothesis [] rfl others restWhole)
  | case7 pending byte rest bounds value later more inductionHypothesis =>
    rw [Bool.and_eq_true, decide_eq_true_eq, decide_eq_true_eq] at bounds
    rw [Begun, more] at begun
    rw [List.append_cons]
    exact inductionHypothesis (taken ++ [byte]) (begun byte bounds.1 bounds.2) scalars whole
  | case8 => exact absurd whole (mapM_cons_none _ _)

/-! ### The units of scalar values -/

theorem toNat_toUInt16 (number : Nat) (below : number < 0x10000) :
    number.toUInt16.toNat = number := Nat.mod_eq_of_lt below

theorem ofScalar_toNat (unit : CodeUnit) : ofScalar unit.toNat = [unit] := by
  rw [ofScalar, if_pos unit.toNat_lt]
  exact congrArg (fun unit => [unit]) UInt16.ofNat_toNat

theorem isHighSurrogate_iff (unit : CodeUnit) :
    unit.isHighSurrogate = true ↔ 0xD800 ≤ unit.toNat ∧ unit.toNat ≤ 0xDBFF := by
  simp [CodeUnit.isHighSurrogate, UInt16.le_iff_toNat_le]

theorem isLowSurrogate_iff (unit : CodeUnit) :
    unit.isLowSurrogate = true ↔ 0xDC00 ≤ unit.toNat ∧ unit.toNat ≤ 0xDFFF := by
  simp [CodeUnit.isLowSurrogate, UInt16.le_iff_toNat_le]

/-- A unit that is no surrogate is a scalar value of its own. -/
theorem scalars_cons (unit : CodeUnit) (isScalar : IsScalar unit.toNat) (rest : Text) :
    scalars (unit :: rest) = unit.toNat :: scalars rest := by
  unfold IsScalar at isScalar
  have notHigh : unit.isHighSurrogate = false :=
    Bool.eq_false_iff.mpr fun high => by
      have := (isHighSurrogate_iff unit).mp high
      omega
  have notLow : unit.isLowSurrogate = false :=
    Bool.eq_false_iff.mpr fun low => by
      have := (isLowSurrogate_iff unit).mp low
      omega
  cases rest <;> simp [scalars, notHigh, notLow]

/-- Two halves of a surrogate pair are one scalar value. -/
theorem scalars_pair (high low : CodeUnit) (isHigh : 0xD800 ≤ high.toNat ∧ high.toNat ≤ 0xDBFF)
    (isLow : 0xDC00 ≤ low.toNat ∧ low.toNat ≤ 0xDFFF) (rest : Text) :
    scalars (high :: low :: rest) = pairScalar high low :: scalars rest := by
  rw [scalars, if_pos ((isHighSurrogate_iff high).mpr isHigh),
    if_pos ((isLowSurrogate_iff low).mpr isLow)]

/-- The units of a scalar value are read as this value, whatever comes after. -/
theorem scalars_ofScalar_append (scalar : Nat) (isScalar : IsScalar scalar) (rest : Text) :
    scalars (ofScalar scalar ++ rest) = scalar :: scalars rest := by
  rw [ofScalar]
  split
  case isTrue basic =>
    have value := toNat_toUInt16 scalar basic
    rw [List.singleton_append, scalars_cons _ (value.symm ▸ isScalar), value]
  case isFalse beyond =>
    unfold IsScalar at isScalar
    have high := toNat_toUInt16 (0xD800 + (scalar - 0x10000) / 0x400) (by omega)
    have low := toNat_toUInt16 (0xDC00 + (scalar - 0x10000) % 0x400) (by omega)
    generalize (0xD800 + (scalar - 0x10000) / 0x400).toUInt16 = first at high ⊢
    generalize (0xDC00 + (scalar - 0x10000) % 0x400).toUInt16 = second at low ⊢
    have paired : pairScalar first second = scalar := by
      unfold pairScalar
      omega
    have isHigh : 0xD800 ≤ first.toNat ∧ first.toNat ≤ 0xDBFF := by omega
    have isLow : 0xDC00 ≤ second.toNat ∧ second.toNat ≤ 0xDFFF := by omega
    rw [List.cons_append, List.singleton_append, scalars_pair first second isHigh isLow, paired]

theorem scalars_flatMap_ofScalar (values : List Nat)
    (areScalars : ∀ value ∈ values, IsScalar value) :
    scalars (values.flatMap ofScalar) = values := by
  induction values with
  | nil => rfl
  | cons value rest inductionHypothesis =>
    obtain ⟨first, others⟩ := List.forall_mem_cons.mp areScalars
    rw [List.flatMap_cons, scalars_ofScalar_append value first, inductionHypothesis others]

/-- Bytes that decode are the UTF-8 form of the text they decode to. -/
theorem encode_of_decode? (bytes : List UInt8) (text : Text) (decodes : decode? bytes = some text) :
    encode text = bytes := by
  obtain ⟨values, whole, rfl⟩ := Option.map_eq_some_iff.mp decodes
  obtain ⟨areScalars, encoded⟩ := encodes_of_piecesFrom [] none rfl bytes values whole
  rw [encode, scalars_flatMap_ofScalar values areScalars]
  exact encoded

end SourceLint.Text
