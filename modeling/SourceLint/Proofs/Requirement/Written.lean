/-
The written form of a requirement stands for that requirement. What is read off a text is well formed:
its name begins and ends with a letter or digit, its extras are in brackets, each version is of the
units of versions, and the marker has no white space at its sides. Of such parts the written form is
made so that the reader finds each of them where the one before it ends.
-/
import SourceLint.Requirement
import SourceLint.Proofs.Text.Cut

namespace SourceLint

/-! ### Units -/

/-- A unit of names is a letter, a digit, or one of three signs. -/
theorem PackageName.isNameUnit_iff (unit : CodeUnit) :
    isNameUnit unit = true ↔
      unit.isAlphanumeric = true ∨ unit = '-' ∨ unit = '_' ∨ unit = '.' := by
  simp only [isNameUnit, isSeparator, Bool.or_eq_true, beq_iff_eq, or_assoc]

/-- A unit of versions is no white space, and none of the signs that stand around versions. -/
theorem Specifier.apart_of_isVersionUnit {unit : CodeUnit} (isOne : isVersionUnit unit = true) :
    unit.isBlank = false ∧ unit ≠ ',' ∧ unit ≠ ';' ∧ unit ≠ '=' := by
  simp only [isVersionUnit, Bool.or_eq_true, beq_iff_eq] at isOne
  rcases isOne with (((((isOne | rfl) | rfl) | rfl) | rfl) | rfl) | rfl
  · refine ⟨CodeUnit.not_isBlank_of_isAlphanumeric isOne, ?_, ?_, ?_⟩ <;>
      (rintro rfl; exact absurd isOne (by decide))
  all_goals decide

namespace Text

/-- A text has no white space at its sides. -/
def IsTrimmed (text : Text) : Prop :=
  (∀ unit ∈ text.head?, unit.isBlank = false) ∧ ∀ unit ∈ text.getLast?, unit.isBlank = false

instance (text : Text) : Decidable text.IsTrimmed := inferInstanceAs (Decidable (_ ∧ _))

/-- Nothing is cut off at the start of a text that begins with no white space. -/
theorem trimStart_eq_self {text : Text} (noBlank : ∀ unit ∈ text.head?, unit.isBlank = false) :
    text.trimStart = text := by
  cases text with
  | nil => rfl
  | cons unit rest =>
    rw [trimStart, List.dropWhile_cons_of_neg]
    rw [noBlank unit rfl]
    decide

theorem IsTrimmed.trim_eq {text : Text} (isTrimmed : text.IsTrimmed) : text.trim = text := by
  rw [trim, trimStart_eq_self isTrimmed.1, trimEnd_eq_self _ isTrimmed.2]

theorem isTrimmed_trim (text : Text) : text.trim.IsTrimmed := by
  obtain ⟨blanks, whole, _, endsWithNone⟩ := text.trimStart.exists_trimEnd
  refine ⟨fun unit isFirst => ?_, endsWithNone⟩
  have starts : text.trimStart.head? = some unit := by
    rw [whole, List.head?_append, show text.trimStart.trimEnd.head? = some unit from isFirst]
    rfl
  have stops := head?_dropWhile_stops CodeUnit.isBlank text unit starts
  simpa using stops

/-- Some unit that is no white space is left of a text that has one. -/
theorem trim_ne_nil {text : Text} {unit : CodeUnit} (member : unit ∈ text)
    (notBlank : unit.isBlank = false) : text.trim ≠ [] := by
  intro empty
  obtain ⟨blanks, whole, areBlank, _⟩ := text.trimStart.exists_trimEnd
  rw [show text.trimStart.trimEnd = [] from empty, List.nil_append] at whole
  rw [← List.takeWhile_append_dropWhile (p := CodeUnit.isBlank) (l := text)] at member
  have isBlank : unit.isBlank = true := by
    rcases List.mem_append.mp member with isLeading | isRest
    · exact List.mem_takeWhile_imp isLeading
    · exact areBlank unit (whole ▸ isRest)
  rw [notBlank] at isBlank
  cases isBlank

/-- The first of joined texts is what they begin with. -/
theorem prefix_join_cons (separator first : Text) (rest : List Text) :
    first <+: join separator (first :: rest) := by
  cases rest with
  | nil => exact List.prefix_rfl
  | cons next others => exact ⟨_, (join_cons (List.cons_ne_nil next others)).symm⟩

end Text

/-! ### Well-formed requirements -/

/-- A specifier as it is read off a text: with a version, which is of the units of versions. -/
structure Specifier.WellFormed (specifier : Specifier) : Prop where
  hasVersion : specifier.version ≠ []
  units : ∀ unit ∈ specifier.version, isVersionUnit unit = true

/-- A requirement as it is read off a text. -/
structure Requirement.WellFormed (requirement : Requirement) : Prop where
  /-- The name begins with a letter or digit. -/
  begins : ∃ unit ∈ requirement.name.head?, unit.isAlphanumeric = true
  /-- The name ends with a letter or digit. -/
  ends : ∀ unit ∈ requirement.name.getLast?, unit.isAlphanumeric = true
  nameUnits : ∀ unit ∈ requirement.name, PackageName.isNameUnit unit = true
  /-- The extras are nothing, or stand in brackets. -/
  extras : requirement.extras = [] ∨
    ∃ inner : Text, (']' : CodeUnit) ∉ inner ∧
      requirement.extras = ('[' : CodeUnit) :: inner ++ ([']'] : Text)
  specifiers : ∀ specifier ∈ requirement.specifiers, specifier.WellFormed
  marker : ∀ marker ∈ requirement.marker, marker.IsTrimmed

namespace Specifier

theorem wellFormed_of_ofText? {text : Text} {specifier : Specifier}
    (reads : ofText? text = some specifier) : specifier.WellFormed := by
  rw [ofText?] at reads
  obtain ⟨comparison, _, reads⟩ := Option.bind_eq_some_iff.mp reads
  dsimp only at reads
  split at reads
  case isTrue => cases reads
  case isFalse isFine =>
    cases reads
    simp only [Bool.or_eq_true, Bool.not_eq_true', not_or, Bool.not_eq_true,
      Bool.not_eq_false] at isFine
    exact ⟨by simpa using isFine.1, List.all_eq_true.mp isFine.2⟩

/-- A comparison is found at the start of a text that goes on with a version. -/
theorem find?_comparison (comparison : Comparison) {unit : CodeUnit} (rest : Text)
    (notEqualSign : unit ≠ '=') :
    (Comparison.all.find? fun other =>
      Text.startsWith (comparison.text ++ unit :: rest) other.text) = some comparison := by
  have differs : ((0x3D : CodeUnit) == unit) = false := beq_false_of_ne (Ne.symm notEqualSign)
  cases comparison <;>
    simp [Comparison.all, List.find?, Text.startsWith, Comparison.text, Text.ofString,
      Text.ofScalar, List.isPrefixOf, differs]

/-- The written form of a specifier stands for it. -/
theorem ofText?_text {specifier : Specifier} (wellFormed : specifier.WellFormed) :
    ofText? specifier.text = some specifier := by
  obtain ⟨comparison, version⟩ := specifier
  obtain ⟨hasVersion, units⟩ := wellFormed
  obtain ⟨unit, rest, rfl⟩ := List.exists_cons_of_ne_nil hasVersion
  obtain ⟨notBlank, -, -, notEqualSign⟩ := apart_of_isVersionUnit (units unit List.mem_cons_self)
  have found := find?_comparison comparison rest notEqualSign
  have version : Text.trimStart ((comparison.text ++ unit :: rest).drop comparison.text.length) =
      unit :: rest := by
    rw [List.drop_left, Text.trimStart_eq_self]
    rintro other ⟨⟩
    exact notBlank
  rw [ofText?, text]
  dsimp only
  rw [found, Option.bind_eq_bind, Option.bind_some, version, List.all_eq_true.mpr units]
  rfl

/-- What the signs and the version of a specifier are not: white space at the sides, a comma, or a
semicolon. -/
theorem isTrimmed_text {specifier : Specifier} (wellFormed : specifier.WellFormed) :
    specifier.text.IsTrimmed := by
  obtain ⟨unit, ends⟩ := Option.ne_none_iff_exists'.mp
    (List.getLast?_eq_none_iff.not.mpr wellFormed.hasVersion)
  constructor
  · intro unit begins
    have each : ∀ comparison : Comparison, ∃ first rest, comparison.text = first :: rest ∧
        first.isBlank = false := by
      intro comparison
      cases comparison <;> exact ⟨_, _, rfl, rfl⟩
    obtain ⟨first, rest, isText, notBlank⟩ := each specifier.comparison
    rw [text, isText, List.cons_append] at begins
    cases begins
    exact notBlank
  · intro last isLast
    rw [text, List.getLast?_append, ends, Option.some_or] at isLast
    cases isLast
    exact (apart_of_isVersionUnit (wellFormed.units _ (List.mem_of_getLast? ends))).1

theorem not_mem_text {specifier : Specifier} (wellFormed : specifier.WellFormed) :
    (',' : CodeUnit) ∉ specifier.text ∧ (';' : CodeUnit) ∉ specifier.text := by
  have signs : ∀ comparison : Comparison,
      (',' : CodeUnit) ∉ comparison.text ∧ (';' : CodeUnit) ∉ comparison.text := by
    intro comparison
    cases comparison <;> decide
  have apart {unit : CodeUnit} (member : unit ∈ specifier.version) :=
    apart_of_isVersionUnit (wellFormed.units unit member)
  rw [text]
  refine ⟨fun member => ?_, fun member => ?_⟩
  · rcases List.mem_append.mp member with isSign | isUnit
    · exact (signs _).1 isSign
    · exact (apart isUnit).2.1 rfl
  · rcases List.mem_append.mp member with isSign | isUnit
    · exact (signs _).2 isSign
    · exact (apart isUnit).2.2.1 rfl

theorem wellFormed_of_listOfText? {text : Text} {specifiers : List Specifier}
    (reads : listOfText? text = some specifiers) :
    ∀ specifier ∈ specifiers, specifier.WellFormed := by
  rw [listOfText?] at reads
  split at reads
  case isTrue =>
    cases reads
    exact List.forall_mem_nil _
  case isFalse =>
    generalize Text.splitAt ',' text = parts at reads
    induction parts generalizing specifiers with
    | nil =>
      cases reads
      exact List.forall_mem_nil _
    | cons part parts inductionHypothesis =>
      rw [List.mapM_cons] at reads
      obtain ⟨first, readsFirst, reads⟩ := Option.bind_eq_some_iff.mp reads
      obtain ⟨rest, readsRest, reads⟩ := Option.bind_eq_some_iff.mp reads
      cases reads
      exact List.forall_mem_cons.mpr
        ⟨wellFormed_of_ofText? readsFirst, inductionHypothesis readsRest⟩

/-- Each of the written forms of specifiers stands for its own. -/
theorem mapM_ofText?_text {specifiers : List Specifier}
    (wellFormed : ∀ specifier ∈ specifiers, specifier.WellFormed) :
    ((specifiers.map text).mapM fun part => ofText? part.trim) = some specifiers := by
  induction specifiers with
  | nil => rfl
  | cons first rest inductionHypothesis =>
    obtain ⟨isFirst, areRest⟩ := List.forall_mem_cons.mp wellFormed
    rw [List.map_cons, List.mapM_cons, (isTrimmed_text isFirst).trim_eq, ofText?_text isFirst,
      inductionHypothesis areRest]
    rfl

/-- The written form of specifiers, with commas between them, stands for them. -/
theorem listOfText?_join {specifiers : List Specifier}
    (wellFormed : ∀ specifier ∈ specifiers, specifier.WellFormed) :
    listOfText? (Text.join "," (specifiers.map text)) = some specifiers := by
  cases specifiers with
  | nil => rfl
  | cons first rest =>
    have parts : Text.splitAt ',' (Text.join "," ((first :: rest).map text)) =
        (first :: rest).map text :=
      Text.splitAt_join (List.cons_ne_nil _ _) (List.forall_mem_map.mpr fun specifier member =>
        (not_mem_text (wellFormed specifier member)).1)
    obtain ⟨unit, isFirst⟩ := Option.ne_none_iff_exists'.mp
      (List.getLast?_eq_none_iff.not.mpr (wellFormed first List.mem_cons_self).hasVersion)
    have notEmpty : (Text.join "," ((first :: rest).map text)).trim ≠ [] := by
      have isVersion := List.mem_of_getLast? isFirst
      have notBlank := (apart_of_isVersionUnit
        ((wellFormed first List.mem_cons_self).units _ isVersion)).1
      exact Text.trim_ne_nil ((Text.prefix_join_cons _ _ _).subset
        (List.mem_append_right _ isVersion)) notBlank
    rw [listOfText?, if_neg (by simpa using notEmpty), parts]
    exact mapM_ofText?_text wellFormed

end Specifier

namespace Requirement

variable {requirement : Requirement}

/-! ### Reading -/

/-- What is read as a name. -/
theorem readName?_spec {text name : Text} (reads : readName? text = some name) :
    (∃ unit ∈ name.head?, unit.isAlphanumeric = true) ∧
      (∀ unit ∈ name.getLast?, unit.isAlphanumeric = true) ∧
        ∀ unit ∈ name, PackageName.isNameUnit unit = true := by
  cases text with
  | nil => cases reads
  | cons unit rest =>
    rw [readName?] at reads
    split at reads
    case isFalse => cases reads
    case isTrue begins =>
      cases reads
      have isNameUnit : PackageName.isNameUnit unit = true :=
        (PackageName.isNameUnit_iff unit).mpr (.inl begins)
      generalize taken : (unit :: rest).takeWhile PackageName.isNameUnit = run
      have units : ∀ other ∈ run, PackageName.isNameUnit other = true :=
        taken ▸ fun other member => List.mem_takeWhile_imp member
      rw [List.takeWhile_cons_of_pos isNameUnit] at taken
      have isPrefix : (run.reverse.dropWhile fun unit => !unit.isAlphanumeric).reverse <+: run := by
        rw [← List.reverse_suffix, List.reverse_reverse]
        exact List.dropWhile_suffix _
      refine ⟨⟨unit, ?_, begins⟩, fun last isLast => ?_, fun other member =>
        units other (isPrefix.subset member)⟩
      · have notEmpty : (run.reverse.dropWhile fun unit => !unit.isAlphanumeric).reverse ≠ [] := by
          rw [ne_eq, List.reverse_eq_nil_iff, List.dropWhile_eq_nil_iff, not_forall]
          refine ⟨unit, fun all => ?_⟩
          have := all (List.mem_reverse.mpr (taken ▸ List.mem_cons_self))
          rw [begins] at this
          cases this
        obtain ⟨first, others, name⟩ := List.exists_cons_of_ne_nil notEmpty
        obtain ⟨cut, whole⟩ := isPrefix
        rw [name, ← taken, List.cons_append] at whole
        rw [name, (List.cons.inj whole).1]
        rfl
      · rw [List.getLast?_reverse] at isLast
        have stops := Text.head?_dropWhile_stops _ run.reverse last isLast
        simpa using stops

/-- A name that reads as one is found at the start of a text that does not go on with units of
names. -/
theorem readName?_append (wellFormed : requirement.WellFormed) {rest : Text}
    (ends : ∀ unit ∈ rest.head?, ¬PackageName.isNameUnit unit = true) :
    readName? (requirement.name ++ rest) = some requirement.name := by
  obtain ⟨unit, isFirst, begins⟩ := wellFormed.begins
  have run : (requirement.name ++ rest).takeWhile PackageName.isNameUnit = requirement.name :=
    Text.takeWhile_append_of_stops wellFormed.nameUnits ends
  have kept : (requirement.name.reverse.dropWhile fun unit => !unit.isAlphanumeric) =
      requirement.name.reverse := by
    cases reversed : requirement.name.reverse with
    | nil => rfl
    | cons last others =>
      have isLast : requirement.name.getLast? = some last := by
        rw [← List.head?_reverse, reversed]
        rfl
      rw [List.dropWhile_cons_of_neg (by rw [wellFormed.ends last isLast]; decide)]
  obtain ⟨others, isName⟩ := List.head?_eq_some_iff.mp isFirst
  rw [isName, List.cons_append] at run ⊢
  rw [readName?]
  dsimp only
  rw [if_pos begins, run, ← isName, kept, List.reverse_reverse]

/-- What is read as extras. -/
theorem readExtras_spec (text : Text) :
    readExtras text = [] ∨ ∃ inner : Text, (']' : CodeUnit) ∉ inner ∧
      readExtras text = ('[' : CodeUnit) :: inner ++ ([']'] : Text) := by
  cases text with
  | nil => exact .inl rfl
  | cons unit rest =>
    rw [readExtras]
    split
    case isFalse => exact .inl rfl
    case isTrue opens =>
      rw [Bool.and_eq_true, decide_eq_true_eq] at opens
      refine .inr ⟨rest.takeWhile fun unit => unit != ']', fun member => ?_, by rw [opens.1]; rfl⟩
      have isInner := List.mem_takeWhile_imp member
      simp at isInner

/-- Extras are found where they stand. -/
theorem readExtras_append (wellFormed : requirement.WellFormed) {rest : Text}
    (ends : ∀ unit ∈ rest.head?, unit ≠ '[') :
    readExtras (requirement.extras ++ rest) = requirement.extras := by
  rcases wellFormed.extras with none | ⟨inner, closesOnce, extras⟩
  · rw [none, List.nil_append]
    cases rest with
    | nil => rfl
    | cons unit rest => rw [readExtras, if_neg (by simp [ends unit rfl])]
  · have isInner : ∀ unit ∈ inner, (unit != (']' : CodeUnit)) = true := fun unit member =>
      bne_iff_ne.mpr fun same => closesOnce (same ▸ member)
    have taken : List.takeWhile (fun unit : CodeUnit => unit != (']' : CodeUnit))
        (inner ++ (']' : CodeUnit) :: rest) = inner := by
      refine Text.takeWhile_append_of_stops isInner fun unit isFirst => ?_
      cases Option.some.inj isFirst
      decide
    have left : List.dropWhile (fun unit : CodeUnit => unit != (']' : CodeUnit))
        (inner ++ (']' : CodeUnit) :: rest) = (']' : CodeUnit) :: rest := by
      rw [List.dropWhile_append_of_pos isInner, List.dropWhile_cons_of_neg (by decide)]
    rw [extras]
    simp only [List.cons_append, List.append_assoc, List.nil_append]
    rw [readExtras, taken, left]
    rfl

theorem wellFormed_of_ofText? {text : Text} (reads : ofText? text = some requirement) :
    requirement.WellFormed := by
  rw [ofText?] at reads
  obtain ⟨name, readsName, reads⟩ := Option.bind_eq_some_iff.mp reads
  obtain ⟨specifiers, readsSpecifiers, reads⟩ := Option.bind_eq_some_iff.mp reads
  cases reads
  obtain ⟨begins, ends, nameUnits⟩ := readName?_spec readsName
  refine ⟨begins, ends, nameUnits, readExtras_spec _, Specifier.wellFormed_of_listOfText?
    readsSpecifiers, fun marker isMarker => ?_⟩
  dsimp only at isMarker
  split at isMarker
  · cases isMarker
  · cases isMarker
    exact Text.isTrimmed_trim _

/-! ### Writing -/

/-- A marker as it is written behind the specifiers. -/
def markerText : Option Text → Text
  | none => []
  | some marker => "; " ++ marker

theorem text_eq (requirement : Requirement) :
    requirement.text = requirement.name ++ (requirement.extras ++
      (Text.join "," (requirement.specifiers.map Specifier.text) ++
        markerText requirement.marker)) := by
  rw [text, List.append_assoc, List.append_assoc]
  cases requirement.marker <;> rfl

/-- Specifiers and a marker begin with a sign that is no white space, opens no extras and belongs to
no name. -/
theorem head?_afterExtras (specifiers : List Specifier) (marker : Option Text) :
    ∀ unit ∈ (Text.join "," (specifiers.map Specifier.text) ++ markerText marker).head?,
      unit.isBlank = false ∧ unit ≠ '[' ∧ ¬PackageName.isNameUnit unit = true := by
  intro unit isFirst
  cases specifiers with
  | nil =>
    cases marker with
    | none => cases isFirst
    | some marker =>
      cases Option.some.inj isFirst
      decide
  | cons first rest =>
    obtain ⟨others, joined⟩ := Text.prefix_join_cons "," first.text (rest.map Specifier.text)
    rw [List.map_cons, ← joined, Specifier.text] at isFirst
    cases comparison : first.comparison <;> rw [comparison] at isFirst <;>
      cases Option.some.inj isFirst <;> decide

/-- Joined specifiers hold no semicolon. -/
theorem semicolon_not_mem_join {specifiers : List Specifier}
    (wellFormed : ∀ specifier ∈ specifiers, specifier.WellFormed) :
    (';' : CodeUnit) ∉ Text.join "," (specifiers.map Specifier.text) := by
  induction specifiers with
  | nil => exact List.not_mem_nil
  | cons first rest inductionHypothesis =>
    obtain ⟨isFirst, areRest⟩ := List.forall_mem_cons.mp wellFormed
    have none := (Specifier.not_mem_text isFirst).2
    cases rest with
    | nil => exact none
    | cons next others =>
      intro member
      rcases List.mem_append.mp member with before | isOther
      · rcases List.mem_append.mp before with isFirst | isComma
        · exact none isFirst
        · exact absurd isComma (by decide)
      · exact inductionHypothesis areRest isOther

/-- The written form of a requirement stands for it. -/
theorem ofText?_text (wellFormed : requirement.WellFormed) :
    ofText? requirement.text = some requirement := by
  generalize isBody : Text.join "," (requirement.specifiers.map Specifier.text) ++
    markerText requirement.marker = body
  have beginsBody : ∀ unit ∈ body.head?,
      unit.isBlank = false ∧ unit ≠ '[' ∧ ¬PackageName.isNameUnit unit = true :=
    isBody ▸ head?_afterExtras requirement.specifiers requirement.marker
  have afterName : ∀ unit ∈ (requirement.extras ++ body).head?,
      unit.isBlank = false ∧ ¬PackageName.isNameUnit unit = true := by
    rcases wellFormed.extras with none | ⟨inner, -, extras⟩
    · rw [none]
      exact fun unit isFirst => ⟨(beginsBody unit isFirst).1, (beginsBody unit isFirst).2.2⟩
    · rw [extras]
      intro unit isFirst
      cases Option.some.inj isFirst
      decide
  have isBefore : ∀ unit ∈ Text.join "," (requirement.specifiers.map Specifier.text),
      (unit != (';' : CodeUnit)) = true := fun unit member =>
    bne_iff_ne.mpr fun same => semicolon_not_mem_join wellFormed.specifiers (same ▸ member)
  have stops : ∀ unit ∈ (markerText requirement.marker).head?,
      ¬(unit != (';' : CodeUnit)) = true := by
    cases requirement.marker with
    | none => exact fun unit isFirst => absurd isFirst (Option.not_mem_none unit)
    | some marker =>
      intro unit isFirst
      cases Option.some.inj isFirst
      decide
  have specifiers : body.takeWhile (fun unit : CodeUnit => unit != (';' : CodeUnit)) =
      Text.join "," (requirement.specifiers.map Specifier.text) :=
    isBody ▸ Text.takeWhile_append_of_stops isBefore stops
  have marker : body.dropWhile (fun unit : CodeUnit => unit != (';' : CodeUnit)) =
      markerText requirement.marker := by
    rw [← Text.drop_length_takeWhile, specifiers, ← isBody, List.drop_left]
  have noLeadingBlank : requirement.text.trimStart = requirement.text := by
    obtain ⟨unit, isFirst, begins⟩ := wellFormed.begins
    refine Text.trimStart_eq_self fun other isOther => ?_
    rw [text_eq, List.head?_append, Option.mem_def.mp isFirst] at isOther
    cases Option.some.inj isOther
    exact CodeUnit.not_isBlank_of_isAlphanumeric begins
  have name : readName? requirement.text = some requirement.name := by
    rw [text_eq, isBody]
    exact readName?_append wellFormed fun unit isFirst => (afterName unit isFirst).2
  have rest : Text.trimStart (requirement.text.drop requirement.name.length) =
      requirement.extras ++ body := by
    rw [text_eq, isBody, List.drop_left]
    exact Text.trimStart_eq_self fun unit isFirst => (afterName unit isFirst).1
  have extras : readExtras (requirement.extras ++ body) = requirement.extras :=
    readExtras_append wellFormed fun unit isFirst => (beginsBody unit isFirst).2.1
  simp only [ofText?, noLeadingBlank, name, Option.bind_eq_bind, Option.bind_some, rest, extras,
    List.drop_left, specifiers, marker, Specifier.listOfText?_join wellFormed.specifiers]
  refine congrArg some ?_
  clear name rest extras specifiers marker
  obtain ⟨name, extras, specifiers, marker⟩ := requirement
  cases marker with
  | none => rfl
  | some marker =>
    exact congrArg (fun read => (⟨name, extras, specifiers, some read⟩ : Requirement))
      (wellFormed.marker marker rfl).trim_eq

end Requirement

end SourceLint
