/-
The canonical form of a name of a package. Such names are of letters, digits and separators, so that
each unit has a lower case of its own and the canonical form is the name with one hyphen for each run
of separators, unit by unit in lower case. It is its own canonical form, and it has as many letters
and digits as the name. The number of a CUDA version at the end of a name stands behind one spelling
of its mark only, and what is before it is shorter in every spelling.
-/
import SourceLint.Proofs.Requirement.Written
import SourceLint.Proofs.Text.Utf8

namespace SourceLint

/-! ### Lower case -/

/-- An ASCII unit in lower case. -/
def CodeUnit.lower (unit : CodeUnit) : CodeUnit :=
  if 0x41 ≤ unit ∧ unit ≤ 0x5A then unit + 0x20 else unit

namespace CodeUnit

theorem lower_cases (unit : CodeUnit) :
    (0x41 ≤ unit.toNat ∧ unit.toNat ≤ 0x5A ∧ unit.lower.toNat = unit.toNat + 0x20) ∨
      (¬(0x41 ≤ unit.toNat ∧ unit.toNat ≤ 0x5A) ∧ unit.lower = unit) := by
  have isUpper_iff : (0x41 ≤ unit ∧ unit ≤ 0x5A) ↔ 0x41 ≤ unit.toNat ∧ unit.toNat ≤ 0x5A := by
    rw [UInt16.le_iff_toNat_le, UInt16.le_iff_toNat_le]
    rfl
  rw [lower]
  split
  case isTrue isUpper =>
    obtain ⟨least, most⟩ := isUpper_iff.mp isUpper
    refine .inl ⟨least, most, ?_⟩
    exact (UInt16.toNat_add unit 0x20).trans (Nat.mod_eq_of_lt (Nat.lt_of_le_of_lt
      (Nat.add_le_add_right most 0x20) (by decide)))
  case isFalse notUpper => exact .inr ⟨isUpper_iff.not.mp notUpper, rfl⟩

theorem lower_lower (unit : CodeUnit) : unit.lower.lower = unit.lower := by
  rcases unit.lower.lower_cases with ⟨least, most, -⟩ | ⟨-, same⟩
  · rcases unit.lower_cases with ⟨_, _, lowered⟩ | ⟨notUpper, same⟩
    · omega
    · exact absurd ⟨same ▸ least, same ▸ most⟩ notUpper
  · exact same

/-- Separators have no letter case. -/
theorem isSeparator_lower (unit : CodeUnit) :
    PackageName.isSeparator unit.lower = PackageName.isSeparator unit := by
  rcases unit.lower_cases with ⟨least, most, lowered⟩ | ⟨-, same⟩
  · have none (other : CodeUnit) (isBetween : 0x2D ≤ other.toNat ∧ other.toNat ≤ 0x2E ∨
        other.toNat = 0x5F) : (unit.lower == other) = false ∧ (unit == other) = false := by
      refine ⟨beq_false_of_ne ?_, beq_false_of_ne ?_⟩ <;>
        (rintro rfl; omega)
    obtain ⟨loweredHyphen, hyphen⟩ := none '-' (by decide)
    obtain ⟨loweredLine, line⟩ := none '_' (by decide)
    obtain ⟨loweredPoint, point⟩ := none '.' (by decide)
    simp only [PackageName.isSeparator, loweredHyphen, hyphen, loweredLine, line, loweredPoint, point]
  · rw [same]

end CodeUnit

namespace LetterCase

/-- ASCII letters are lowered on their own. -/
theorem lower_ascii (unit : CodeUnit) (isAscii : unit.toNat < 0x80) :
    lower unit.toNat = unit.lower.toNat := by
  have each : ∀ value : Fin 0x80, lower value.val = (CodeUnit.lower value.val.toUInt16).toNat := by
    decide +kernel
  have same : unit.toNat.toUInt16 = unit := UInt16.ofNat_toNat
  have found := each ⟨unit.toNat, isAscii⟩
  rwa [same] at found

end LetterCase

namespace Text

theorem scalars_ascii {text : Text} (ascii : ∀ unit ∈ text, unit.toNat < 0x80) :
    text.scalars = text.map UInt16.toNat := by
  induction text with
  | nil => rfl
  | cons unit rest inductionHypothesis =>
    obtain ⟨isAscii, others⟩ := List.forall_mem_cons.mp ascii
    have isScalar : IsScalar unit.toNat := by
      unfold IsScalar
      omega
    rw [scalars_cons unit isScalar, inductionHypothesis others, List.map_cons]

theorem lowerScalars_ascii {text : Text} (ascii : ∀ unit ∈ text, unit.toNat < 0x80)
    (before : List Nat) :
    (lowerScalars before (text.map UInt16.toNat)).flatMap ofScalar = text.map CodeUnit.lower := by
  induction text generalizing before with
  | nil => rfl
  | cons unit rest inductionHypothesis =>
    obtain ⟨isAscii, others⟩ := List.forall_mem_cons.mp ascii
    have lowered : unit.lower.toNat < 0x80 := by
      rcases unit.lower_cases with ⟨_, _, lowered⟩ | ⟨-, same⟩
      · omega
      · rwa [same]
    have alone : lowerScalar before (rest.map UInt16.toNat) unit.toNat = [unit.lower.toNat] := by
      rw [lowerScalar, if_neg (by omega), if_neg (by omega), LetterCase.lower_ascii unit isAscii]
    rw [List.map_cons, lowerScalars, List.flatMap_append, inductionHypothesis others, alone,
      List.flatMap_singleton, ofScalar_toNat]
    rfl

/-- An ASCII text is lowered unit by unit. -/
theorem lowercase_ascii {text : Text} (ascii : ∀ unit ∈ text, unit.toNat < 0x80) :
    text.lowercase = text.map CodeUnit.lower := by
  rw [lowercase, scalars_ascii ascii, lowerScalars_ascii ascii]

end Text

namespace PackageName

/-! ### The canonical form -/

theorem isAscii_of_isNameUnit {unit : CodeUnit} (isOne : isNameUnit unit = true) :
    unit.toNat < 0x80 := by
  rcases (isNameUnit_iff unit).mp isOne with isOne | rfl | rfl | rfl
  · simp only [CodeUnit.isAlphanumeric, CodeUnit.isDigit, Bool.or_eq_true, Bool.and_eq_true,
      decide_eq_true_eq, UInt16.le_iff_toNat_le, UInt16.reduceToNat] at isOne
    omega
  all_goals decide

/-- Joined words are of the units of the name, and of hyphens. -/
theorem mem_joinWords {name : Text} {inRun : Bool} {unit : CodeUnit}
    (member : unit ∈ joinWords inRun name) : unit = '-' ∨ unit ∈ name := by
  fun_induction joinWords inRun name with
  | case1 => cases member
  | case2 first rest isSeparator inductionHypothesis =>
    exact (inductionHypothesis member).imp_right (List.mem_cons_of_mem _)
  | case3 inRun first rest isSeparator notInRun inductionHypothesis =>
    rcases List.mem_cons.mp member with isHyphen | later
    · exact .inl isHyphen
    · exact (inductionHypothesis later).imp_right (List.mem_cons_of_mem _)
  | case4 inRun first rest noSeparator inductionHypothesis =>
    rcases List.mem_cons.mp member with isFirst | later
    · exact .inr (isFirst ▸ List.mem_cons_self)
    · exact (inductionHypothesis later).imp_right (List.mem_cons_of_mem _)

theorem joinWords_joinWords (inRun : Bool) (name : Text) :
    joinWords inRun (joinWords inRun name) = joinWords inRun name := by
  have isHyphen : isSeparator '-' = true := rfl
  fun_induction joinWords inRun name with
  | case1 => rfl
  | case2 first rest isSeparator inductionHypothesis => exact inductionHypothesis
  | case3 inRun first rest isSeparator notInRun inductionHypothesis =>
    rw [joinWords, if_pos isHyphen, if_neg notInRun, inductionHypothesis]
  | case4 inRun first rest noSeparator inductionHypothesis =>
    rw [joinWords, if_neg noSeparator, inductionHypothesis]

theorem joinWords_map_lower (inRun : Bool) (name : Text) :
    joinWords inRun (name.map CodeUnit.lower) = (joinWords inRun name).map CodeUnit.lower := by
  have hyphen : CodeUnit.lower '-' = '-' := by decide
  fun_induction joinWords inRun name with
  | case1 => rfl
  | case2 first rest isSeparator inductionHypothesis =>
    rw [List.map_cons, joinWords, first.isSeparator_lower, if_pos isSeparator, if_pos rfl,
      inductionHypothesis]
  | case3 inRun first rest isSeparator notInRun inductionHypothesis =>
    rw [List.map_cons, joinWords, first.isSeparator_lower, if_pos isSeparator, if_neg notInRun,
      inductionHypothesis, List.map_cons, hyphen]
  | case4 inRun first rest noSeparator inductionHypothesis =>
    rw [List.map_cons, joinWords, first.isSeparator_lower, if_neg noSeparator, inductionHypothesis,
      List.map_cons]

variable {name : Text} (units : ∀ unit ∈ name, isNameUnit unit = true)

include units

theorem canonical_eq_map : canonical name = (joinWords false name).map CodeUnit.lower := by
  refine Text.lowercase_ascii fun unit member => ?_
  rcases mem_joinWords member with rfl | isUnit
  · decide
  · exact isAscii_of_isNameUnit (units unit isUnit)

/-- A canonical form is its own canonical form. -/
theorem canonical_canonical : canonical (canonical name) = canonical name := by
  have ascii : ∀ unit ∈ (joinWords false name).map CodeUnit.lower, unit.toNat < 0x80 := by
    refine List.forall_mem_map.mpr fun unit member => ?_
    have isAscii : unit.toNat < 0x80 := by
      rcases mem_joinWords member with rfl | isUnit
      · decide
      · exact isAscii_of_isNameUnit (units unit isUnit)
    rcases unit.lower_cases with ⟨_, _, lowered⟩ | ⟨-, same⟩
    · omega
    · rwa [same]
  have joined : joinWords false ((joinWords false name).map CodeUnit.lower) =
      (joinWords false name).map CodeUnit.lower := by
    rw [joinWords_map_lower, joinWords_joinWords]
  rw [canonical_eq_map units, canonical, joined, Text.lowercase_ascii ascii, List.map_map]
  exact List.map_congr_left fun unit _ => unit.lower_lower

omit units in
theorem countP_joinWords (inRun : Bool) (name : Text) :
    (joinWords inRun name).countP (fun unit => !isSeparator unit) =
      name.countP fun unit => !isSeparator unit := by
  have isHyphen : isSeparator '-' = true := rfl
  fun_induction joinWords inRun name with
  | case1 => rfl
  | case2 first rest isSeparator inductionHypothesis =>
    rw [List.countP_cons, isSeparator, inductionHypothesis]
    rfl
  | case3 inRun first rest isSeparator notInRun inductionHypothesis =>
    rw [List.countP_cons, List.countP_cons, isSeparator, isHyphen, inductionHypothesis]
  | case4 inRun first rest noSeparator inductionHypothesis =>
    rw [List.countP_cons, List.countP_cons, inductionHypothesis]

/-- A name has as many letters and digits as its canonical form. -/
theorem countP_canonical :
    (canonical name).countP (fun unit => !isSeparator unit) =
      name.countP fun unit => !isSeparator unit := by
  rw [canonical_eq_map units, List.countP_map, ← countP_joinWords false name]
  refine List.countP_congr fun unit _ => ?_
  rw [Function.comp_apply, unit.isSeparator_lower]

/-! ### CUDA numbers -/

/-- A name ends with the mark of a CUDA version and its number; what is before them is not nothing. -/
def IsNumbered (name base : Text) : Prop :=
  ∃ digits : Text, name = base ++ (cudaMark ++ digits) ∧ base ≠ [] ∧ digits ≠ [] ∧
    ∀ unit ∈ digits, unit.isDigit = true

/-- A name with a CUDA number behind a spelling of the name of a package, given in its canonical form. -/
def NumbersPackage (name package : Text) : Prop :=
  ∃ base, IsNumbered name base ∧ canonical base = package

omit units in
/-- What stands before a CUDA number is found, on one line of text. -/
theorem beforeCudaNumber?_eq_some_iff {name base : Text}
    (oneLine : ∀ unit ∈ name, unit.isLineTerminator = false) :
    beforeCudaNumber? name = some base ↔ IsNumbered name base := by
  rw [beforeCudaNumber?]
  constructor
  · intro found
    split at found
    case isFalse => cases found
    case isTrue isNumbered =>
      simp only [Bool.and_eq_true, decide_eq_true_eq, Bool.not_eq_true', List.isEmpty_eq_false_iff]
        at isNumbered
      obtain ⟨⟨⟨shorter, endsWithMark⟩, notEmpty⟩, -⟩ := isNumbered
      cases found
      obtain ⟨base, marked⟩ := List.isSuffixOf_iff_suffix.mp endsWithMark
      have whole : (name.reverse.dropWhile CodeUnit.isDigit).reverse ++
          (name.reverse.takeWhile CodeUnit.isDigit).reverse = name := by
        rw [← List.reverse_append, List.takeWhile_append_dropWhile, List.reverse_reverse]
      rw [← marked, List.length_append, Nat.add_sub_cancel, List.take_left] at notEmpty ⊢
      refine ⟨(name.reverse.takeWhile CodeUnit.isDigit).reverse, ?_, notEmpty, ?_, fun unit member =>
        List.mem_takeWhile_imp (List.mem_reverse.mp member)⟩
      · rw [← List.append_assoc, marked, whole]
      · intro isNil
        rw [isNil, List.append_nil] at whole
        rw [whole] at shorter
        exact absurd shorter (Nat.lt_irrefl _)
  · rintro ⟨digits, rfl, notEmpty, someDigits, areDigits⟩
    have mark : cudaMark = [('-' : CodeUnit), 'c', 'u'] := rfl
    have marked : (((base ++ (cudaMark ++ digits)).reverse).dropWhile CodeUnit.isDigit).reverse =
        base ++ cudaMark := by
      have stops : (base ++ cudaMark).reverse.dropWhile CodeUnit.isDigit =
          (base ++ cudaMark).reverse := by
        rw [List.reverse_append, mark]
        exact List.dropWhile_cons_of_neg (by decide)
      rw [← List.append_assoc, List.reverse_append, List.dropWhile_append_of_pos
        fun unit member => areDigits unit (List.mem_reverse.mp member), stops, List.reverse_reverse]
    have noTerminator : base.any CodeUnit.isLineTerminator = false :=
      List.any_eq_false.mpr fun unit member => by
        rw [oneLine unit (List.mem_append_left _ member)]
        decide
    have endsWithMark : Text.endsWith (base ++ cudaMark) cudaMark = true :=
      List.isSuffixOf_iff_suffix.mpr (List.suffix_append _ _)
    have cut : (base ++ cudaMark).take ((base ++ cudaMark).length - cudaMark.length) = base := by
      rw [List.length_append, Nat.add_sub_cancel, List.take_left]
    have some := List.length_pos_of_ne_nil someDigits
    rw [marked, cut, if_pos]
    simp [some, endsWithMark, noTerminator, notEmpty]

theorem oneLine_of_units : ∀ unit ∈ name, unit.isLineTerminator = false := by
  intro unit member
  have isAscii := isAscii_of_isNameUnit (units unit member)
  refine Bool.eq_false_iff.mpr fun terminates => ?_
  simp only [CodeUnit.isLineTerminator, Bool.or_eq_true, beq_iff_eq] at terminates
  rcases terminates with ((rfl | rfl) | rfl) | rfl
  · exact absurd (units _ member) (by decide)
  · exact absurd (units _ member) (by decide)
  · exact absurd isAscii (by decide)
  · exact absurd isAscii (by decide)

theorem numbersPackage_iff (package : Text) :
    NumbersPackage name package ↔ (beforeCudaNumber? name).map canonical = some package := by
  rw [Option.map_eq_some_iff]
  exact exists_congr fun base =>
    and_congr_left fun _ => (beforeCudaNumber?_eq_some_iff (oneLine_of_units units)).symm

theorem NumbersPackage.canonical_eq {package : Text} (numbers : NumbersPackage name package) :
    canonical package = package := by
  obtain ⟨base, ⟨digits, rfl, -, -, -⟩, rfl⟩ := numbers
  exact canonical_canonical fun unit member => units unit (List.mem_append_left _ member)

/-- The package that a name numbers is not the one that it names. -/
theorem NumbersPackage.ne_canonical {package : Text} (numbers : NumbersPackage name package) :
    package ≠ canonical name := by
  obtain ⟨base, ⟨digits, rfl, -, -, -⟩, rfl⟩ := numbers
  intro same
  have counts := congrArg (List.countP fun unit => !isSeparator unit) same
  rw [countP_canonical units, countP_canonical fun unit member =>
    units unit (List.mem_append_left _ member), List.countP_append, List.countP_append] at counts
  have mark : cudaMark.countP (fun unit => !isSeparator unit) = 2 := rfl
  omega

end PackageName

end SourceLint
