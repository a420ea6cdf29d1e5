/-
This file proves that strings, keys and values are written in one way only, as far as their meaning
goes: what has one source stands for one thing. Where a value or a key ends is known from the scanner,
which takes each as it is written.
-/
import SourceLint.Proofs.Toml.Documents

namespace SourceLint.Toml

open Cursor (isLayoutUnit)

variable {dialect : Dialect} {quote : CodeUnit} {multiline numeric : Bool}
  {source text other rest others : Text}

/-! ### Blanks and line endings -/

/-- Blanks before what is no blank are told from it. -/
theorem blanks_unique {blanks further : Blanks}
    (same : blanks.source ++ rest = further.source ++ others)
    (stops : ∀ unit ∈ rest.head?, unit.isSpaceOrTab = false)
    (stopsAgain : ∀ unit ∈ others.head?, unit.isSpaceOrTab = false) : rest = others := by
  have skipped := skipSpace_blanks_eq blanks 0 _ stops
  rw [same, skipSpace_blanks_eq further 0 _ stopsAgain] at skipped
  exact (congrArg Cursor.rest skipped).symm

theorem gap_unique {gap further : Gap dialect} (same : gap.source ++ rest = further.source ++ others)
    (stops : ∀ unit ∈ rest.head?, EndsTrivia unit)
    (stopsAgain : ∀ unit ∈ others.head?, EndsTrivia unit) : rest = others := by
  have skipped := skipTrivia_gap gap 0 _ stops
  rw [same, skipTrivia_gap further 0 _ stopsAgain] at skipped
  exact (congrArg Cursor.rest skipped).symm

theorem Newline.isBreak {newline : Newline} {unit : CodeUnit}
    (same : newline.source ++ rest = unit :: others) : unit = 0x0A ∨ unit = 0x0D := by
  cases newline with
  | lineFeed => exact Or.inl (List.cons.inj same).1.symm
  | pair => exact Or.inr (List.cons.inj same).1.symm

theorem Newline.not_isSpaceOrTab {newline : Newline} {unit : CodeUnit}
    (same : newline.source ++ rest = unit :: others) : unit.isSpaceOrTab = false := by
  obtain rfl | rfl := newline.isBreak same <;> decide

theorem Newline.unique {newline further : Newline}
    (same : newline.source ++ rest = further.source ++ others) :
    newline = further ∧ rest = others := by
  cases newline <;> cases further
  · exact ⟨rfl, (List.cons.inj same).2⟩
  · exact absurd (List.cons.inj same).1 (by decide)
  · exact absurd (List.cons.inj same).1 (by decide)
  · exact ⟨rfl, (List.cons.inj (List.cons.inj same).2).2⟩

/-! ### Strings -/

/-- Blanks and line endings up to something else. -/
theorem Spacing.unique {spacing further : Text} (isSpacing : Spacing spacing)
    (isFurther : Spacing further) (same : spacing ++ rest = further ++ others)
    (notBlank : ∀ unit ∈ rest.head?, unit.isSpaceOrTab = false)
    (unbroken : ∀ newline : Newline, ¬newline.source <+: rest)
    (notBlankAgain : ∀ unit ∈ others.head?, unit.isSpaceOrTab = false)
    (unbrokenAgain : ∀ newline : Newline, ¬newline.source <+: others) : rest = others := by
  have notBoth {unit : CodeUnit} {newline : Newline} {rest others : Text}
      (isBlank : unit.isSpaceOrTab = true) (same : newline.source ++ others = unit :: rest) : False :=
    absurd ((Newline.not_isSpaceOrTab same).symm.trans isBlank) (by decide)
  induction isSpacing generalizing further with
  | nil =>
    cases isFurther with
    | nil => exact same
    | blank isBlank =>
      subst same
      exact absurd ((notBlank _ rfl).symm.trans isBlank) (by decide)
    | newline newline =>
      rw [List.append_assoc] at same
      exact absurd ⟨_, same.symm⟩ (unbroken newline)
  | blank isBlank _ inductionHypothesis =>
    cases isFurther with
    | nil =>
      subst same
      exact absurd ((notBlankAgain _ rfl).symm.trans isBlank) (by decide)
    | blank _ more => exact inductionHypothesis more (List.cons.inj same).2
    | newline newline =>
      rw [List.append_assoc] at same
      exact (notBoth isBlank same.symm).elim
  | newline newline _ inductionHypothesis =>
    rw [List.append_assoc] at same
    cases isFurther with
    | nil => exact absurd ⟨_, same⟩ (unbrokenAgain newline)
    | blank isBlank => exact (notBoth isBlank same).elim
    | newline further more =>
      rw [List.append_assoc] at same
      exact inductionHypothesis more (Newline.unique same).2

theorem not_numeric_of_short {letter meant : CodeUnit} {count : Nat}
    (isShort : (letter, meant) ∈ shortEscapes) : (letter, count) ∉ numericEscapes := by
  intro isNumeric
  simp only [numericEscapes, List.mem_cons, List.not_mem_nil, or_false, Prod.mk.injEq] at isNumeric
  have resolved := keyEscape?_eq isShort
  rcases isNumeric with ⟨rfl, -⟩ | ⟨rfl, -⟩
  · exact absurd resolved (ne_of_eq_of_ne (by decide) (Option.some_ne_none meant).symm)
  · exact absurd resolved (ne_of_eq_of_ne (by decide) (Option.some_ne_none meant).symm)

/-- The letter of a numeric escape says how many digits follow it. -/
theorem numericEscapes_count {letter : CodeUnit} {count further : Nat}
    (first : (letter, count) ∈ numericEscapes) (second : (letter, further) ∈ numericEscapes) :
    count = further := by
  simp only [numericEscapes, List.mem_cons, List.not_mem_nil, or_false, Prod.mk.injEq]
    at first second
  rcases first with ⟨rfl, rfl⟩ | ⟨rfl, rfl⟩ <;>
    rcases second with ⟨isLetter, rfl⟩ | ⟨isLetter, rfl⟩
  · rfl
  · exact absurd isLetter (by decide)
  · exact absurd isLetter (by decide)
  · rfl

/-- An escape ends where its letter says. -/
theorem Escape.unique {escape meant further means : Text} (escapes : Escape numeric escape meant)
    (escapesAgain : Escape numeric further means) (same : escape ++ rest = further ++ others) :
    meant = means ∧ rest = others := by
  cases escapes with
  | short isShort =>
    cases escapesAgain with
    | short isShortAgain =>
      obtain ⟨rfl, rfl⟩ := List.cons.inj same
      have resolved := keyEscape?_eq isShort
      rw [keyEscape?_eq isShortAgain] at resolved
      cases resolved
      exact ⟨rfl, rfl⟩
    | number _ isNumeric =>
      obtain ⟨rfl, -⟩ := List.cons.inj same
      exact absurd isNumeric (not_numeric_of_short isShort)
  | number _ isNumeric =>
    cases escapesAgain with
    | short isShort =>
      obtain ⟨rfl, -⟩ := List.cons.inj same
      exact absurd isNumeric (not_numeric_of_short isShort)
    | number _ isNumericAgain =>
      obtain ⟨rfl, sameDigits⟩ := List.cons.inj same
      obtain ⟨rfl, rfl⟩ := List.append_inj sameDigits (numericEscapes_count isNumeric isNumericAgain)
      exact ⟨rfl, rfl⟩

theorem Escape.exists_head {escape meant : Text} (escapes : Escape numeric escape meant) :
    ∃ letter rest, escape = letter :: rest ∧ letter.isSpaceOrTab = false ∧ letter ≠ 0x0A ∧
      letter ≠ 0x0D := by
  cases escapes with
  | short isShort =>
    refine ⟨_, _, rfl, ?_⟩
    simp only [shortEscapes, List.mem_cons, List.not_mem_nil, or_false, Prod.mk.injEq] at isShort
    rcases isShort with ⟨rfl, -⟩ | ⟨rfl, -⟩ | ⟨rfl, -⟩ | ⟨rfl, -⟩ | ⟨rfl, -⟩ | ⟨rfl, -⟩ | ⟨rfl, -⟩ <;>
      decide
  | number _ isNumeric =>
    refine ⟨_, _, rfl, ?_⟩
    simp only [numericEscapes, List.mem_cons, List.not_mem_nil, or_false, Prod.mk.injEq] at isNumeric
    rcases isNumeric with ⟨rfl, -⟩ | ⟨rfl, -⟩ <;> decide

/-- An escape is told from a backslash at the end of a line. -/
theorem Escape.ne_joined {escape meant : Text} (escapes : Escape numeric escape meant) (blanks : Blanks)
    (newline : Newline) (rest others : Text) :
    escape ++ others ≠ blanks.source ++ (newline.source ++ rest) := by
  obtain ⟨letter, further, rfl, notBlank, notFeed, notReturn⟩ := escapes.exists_head
  obtain ⟨source, areBlank⟩ := blanks
  intro same
  cases source with
  | nil => exact (newline.isBreak same.symm).elim notFeed notReturn
  | cons unit source =>
    obtain rfl := (List.cons.inj same).1
    exact absurd ((areBlank _ List.mem_cons_self).symm.trans notBlank) (by decide)

theorem quotes_eq_cons (quote : CodeUnit) (multiline : Bool) :
    ∃ rest, quotes quote multiline = quote :: rest := by
  cases multiline <;> exact ⟨_, rfl⟩

/-- The text of a string can be told from its source. -/
theorem Body.unique (isQuoted : IsQuote quote) (body : Body dialect quote multiline numeric source text)
    (again : Body dialect quote multiline numeric source other) : text = other := by
  have quoteNeBackslash : quote ≠ backslash := by obtain rfl | rfl := isQuoted <;> decide
  have quoteNotBreak : ¬(quote = 0x0A ∨ quote = 0x0D) := by obtain rfl | rfl := isQuoted <;> decide
  have notBackslash : ¬(backslash = 0x0A ∨ backslash = 0x0D) := by decide
  have unitNotBreak {unit : CodeUnit} (allowed : dialect.isStringUnit unit = true) :
      ¬(unit = 0x0A ∨ unit = 0x0D) := fun isBreak =>
    absurd (allowed.symm.trans (dialect.not_isStringUnit_of_break _ isBreak)) (by decide)
  obtain ⟨quotesRest, isQuotes⟩ := quotes_eq_cons quote multiline
  induction body generalizing other with
  | close =>
    generalize isSource : quotes quote multiline = source at again
    cases again with
    | close => rfl
    | unit _ goesOn => exact absurd (isSource ▸ List.prefix_rfl) goesOn
    | escape | joined =>
      rw [isQuotes] at isSource
      exact absurd (List.cons.inj isSource).1 quoteNeBackslash
    | newline => exact (quoteNotBreak (Newline.isBreak (isSource.symm.trans isQuotes))).elim
  | @unit unit rest text allowed goesOn plain more inductionHypothesis =>
    generalize isSource : unit :: rest = source at again
    cases again with
    | close => exact absurd (isSource ▸ List.prefix_rfl) goesOn
    | unit _ _ _ moreAgain =>
      obtain ⟨rfl, rfl⟩ := List.cons.inj isSource
      exact congrArg _ (inductionHypothesis moreAgain)
    | escape isDouble | joined isDouble => exact absurd (List.cons.inj isSource).1 (plain isDouble)
    | newline => exact (unitNotBreak allowed (Newline.isBreak isSource.symm)).elim
  | @escape escape meant rest text isDouble escapes more inductionHypothesis =>
    generalize isSource : backslash :: (escape ++ rest) = source at again
    cases again with
    | close =>
      rw [isQuotes] at isSource
      exact absurd (List.cons.inj isSource).1.symm quoteNeBackslash
    | unit _ _ plain => exact absurd (List.cons.inj isSource).1.symm (plain isDouble)
    | escape _ escapesAgain moreAgain =>
      obtain ⟨rfl, rfl⟩ := escapes.unique escapesAgain (List.cons.inj isSource).2
      exact congrArg _ (inductionHypothesis moreAgain)
    | newline => exact (notBackslash (Newline.isBreak isSource.symm)).elim
    | joined => exact absurd (List.cons.inj isSource).2 (escapes.ne_joined _ _ _ _)
  | @newline rest text isMultiline newline more inductionHypothesis =>
    generalize isSource : newline.source ++ rest = source at again
    cases again with
    | close => exact (quoteNotBreak (Newline.isBreak (isSource.trans isQuotes))).elim
    | unit allowed => exact (unitNotBreak allowed (Newline.isBreak isSource)).elim
    | escape | joined => exact (notBackslash (Newline.isBreak isSource)).elim
    | newline _ _ moreAgain =>
      obtain ⟨rfl, rfl⟩ := Newline.unique isSource
      exact congrArg _ (inductionHypothesis moreAgain)
  | @joined spacing rest text isDouble isMultiline blanks newline isSpacing notBlank unbroken more
      inductionHypothesis =>
    generalize isSource :
      backslash :: (blanks.source ++ (newline.source ++ (spacing ++ rest))) = source at again
    cases again with
    | close =>
      rw [isQuotes] at isSource
      exact absurd (List.cons.inj isSource).1.symm quoteNeBackslash
    | unit _ _ plain => exact absurd (List.cons.inj isSource).1.symm (plain isDouble)
    | escape _ escapes => exact absurd (List.cons.inj isSource).2.symm (escapes.ne_joined _ _ _ _)
    | newline => exact (notBackslash (Newline.isBreak isSource.symm)).elim
    | joined _ _ _ _ isSpacingAgain notBlankAgain unbrokenAgain moreAgain =>
      have stops (newline : Newline) (rest : Text) :
          ∀ unit ∈ (newline.source ++ rest).head?, unit.isSpaceOrTab = false := fun unit first =>
        have ⟨_, splits⟩ := List.head?_eq_some_iff.mp first
        Newline.not_isSpaceOrTab splits
      have sameBreak := blanks_unique (List.cons.inj isSource).2 (stops _ _) (stops _ _)
      obtain rfl := isSpacing.unique isSpacingAgain (Newline.unique sameBreak).2 notBlank unbroken
        notBlankAgain unbrokenAgain
      exact inductionHypothesis moreAgain

/-- A string between single quotes of three units or more is none on one line. -/
theorem Body.ne_quotes (body : Body dialect quote false numeric source text) (rest : Text) :
    quote :: source ≠ quotes quote true ++ rest := by
  intro same
  obtain ⟨others, isSource⟩ : ∃ others, source = quote :: quote :: others :=
    ⟨rest, (List.cons.inj same).2⟩
  cases body with
  | close => exact absurd (congrArg List.length isSource) (by simp [quotes])
  | unit _ goesOn =>
    obtain ⟨rfl, -⟩ := List.cons.inj isSource
    exact goesOn (List.prefix_append [_] _)
  | escape isDouble =>
    subst isDouble
    exact absurd (List.cons.inj isSource).1 (by decide)
  | newline isMultiline => cases isMultiline
  | joined _ isMultiline => cases isMultiline

theorem IsString.unique (isString : IsString dialect source text)
    (again : IsString dialect source other) : text = other := by
  cases isString with
  | @line quote rest _ isQuoted body =>
    generalize isSource : quote :: rest = source at again
    cases again with
    | line _ bodyAgain =>
      obtain ⟨rfl, rfl⟩ := List.cons.inj isSource
      exact body.unique isQuoted bodyAgain
    | lines =>
      obtain ⟨rfl, -⟩ := List.cons.inj isSource
      exact absurd isSource (body.ne_quotes _)
    | brokenLines =>
      obtain ⟨rfl, -⟩ := List.cons.inj isSource
      rw [List.append_assoc] at isSource
      exact absurd isSource (body.ne_quotes _)
  | @lines quote rest _ isQuoted unbroken body =>
    generalize isSource : quotes quote true ++ rest = source at again
    cases again with
    | line _ bodyAgain =>
      obtain ⟨rfl, -⟩ := List.cons.inj isSource
      exact absurd isSource.symm (bodyAgain.ne_quotes _)
    | lines _ _ bodyAgain =>
      obtain ⟨rfl, same⟩ := List.cons.inj isSource
      obtain rfl := (List.cons.inj (List.cons.inj same).2).2
      exact body.unique isQuoted bodyAgain
    | brokenLines _ newline =>
      rw [List.append_assoc] at isSource
      obtain ⟨rfl, same⟩ := List.cons.inj isSource
      exact absurd ⟨_, (List.cons.inj (List.cons.inj same).2).2.symm⟩ (unbroken newline)
  | @brokenLines quote rest _ isQuoted newline body =>
    generalize isSource : quotes quote true ++ newline.source ++ rest = source at again
    rw [List.append_assoc] at isSource
    cases again with
    | line _ bodyAgain =>
      obtain ⟨rfl, -⟩ := List.cons.inj isSource
      exact absurd isSource.symm (bodyAgain.ne_quotes _)
    | lines _ unbroken =>
      obtain ⟨rfl, same⟩ := List.cons.inj isSource
      exact absurd ⟨_, (List.cons.inj (List.cons.inj same).2).2⟩ (unbroken newline)
    | brokenLines _ further bodyAgain =>
      rw [List.append_assoc] at isSource
      obtain ⟨rfl, same⟩ := List.cons.inj isSource
      obtain ⟨rfl, rfl⟩ := Newline.unique (List.cons.inj (List.cons.inj same).2).2
      exact body.unique isQuoted bodyAgain

/-! ### Keys -/

namespace Written

theorem KeyPart.unique {part further : KeyPart dialect} (same : part.source = further.source) :
    part.name = further.name := by
  cases part with
  | bare name notEmpty areUnits =>
    cases further with
    | bare => exact same
    | quoted quote rest name isQuoted =>
      have member : quote ∈ quote :: rest := List.mem_cons_self
      have isBare := areUnits quote ((congrArg (quote ∈ ·) same).mpr member)
      exact absurd (isQuoted.not_isBareKeyUnit.symm.trans isBare) (by decide)
  | quoted quote rest name isQuoted body =>
    cases further with
    | bare name notEmpty areUnits =>
      have member : quote ∈ quote :: rest := List.mem_cons_self
      have isBare := areUnits quote ((congrArg (quote ∈ ·) same).mp member)
      exact absurd (isQuoted.not_isBareKeyUnit.symm.trans isBare) (by decide)
    | quoted _ _ _ _ bodyAgain =>
      obtain ⟨rfl, rfl⟩ := List.cons.inj same
      exact body.unique isQuoted bodyAgain

/-- A part of a key is told from what follows it. -/
theorem KeyPart.splits {part further : KeyPart dialect} {blanks between : Blanks}
    (same : part.source ++ (blanks.source ++ rest) = further.source ++ (between.source ++ others))
    (ends : ∀ unit ∈ rest.head?, EndsPart unit ∧ unit.isSpaceOrTab = false)
    (endsAgain : ∀ unit ∈ others.head?, EndsPart unit ∧ unit.isSpaceOrTab = false) :
    part.name = further.name ∧ rest = others := by
  have reads := readKeyPart_eq part 0 (endsPart_of_blanks blanks fun unit first => (ends unit first).1)
  rw [same, readKeyPart_eq further 0
    (endsPart_of_blanks between fun unit first => (endsAgain unit first).1)] at reads
  have sameLength := congrArg (fun read => read.2.position) reads
  simp only [Nat.zero_add] at sameLength
  obtain ⟨sameSource, sameRest⟩ := List.append_inj same sameLength.symm
  exact ⟨KeyPart.unique sameSource, blanks_unique sameRest (fun unit first => (ends unit first).2)
    fun unit first => (endsAgain unit first).2⟩

/-- A key is told from what follows it. -/
theorem Key.unique (key further : Key dialect) {blanks between : Blanks}
    (same : key.source ++ (blanks.source ++ rest) = further.source ++ (between.source ++ others))
    (ends : ∀ unit ∈ rest.head?, EndsKey unit) (endsAgain : ∀ unit ∈ others.head?, EndsKey unit) :
    key.path = further.path ∧ rest = others := by
  have stops : ∀ unit ∈ rest.head?, EndsPart unit ∧ unit.isSpaceOrTab = false := fun unit first =>
    ⟨(ends unit first).endsPart, (ends unit first).notBlank⟩
  have stopsAgain : ∀ unit ∈ others.head?, EndsPart unit ∧ unit.isSpaceOrTab = false :=
    fun unit first => ⟨(endsAgain unit first).endsPart, (endsAgain unit first).notBlank⟩
  have pointStops (text : Text) : ∀ unit ∈ (('.' : CodeUnit) :: text).head?,
      EndsPart unit ∧ unit.isSpaceOrTab = false := by
    rintro _ ⟨⟩
    exact ⟨⟨by decide, by decide⟩, by decide⟩
  have keyStops (key : Key dialect) (text : Text) : ∀ unit ∈ (key.source ++ text).head?,
      unit.isSpaceOrTab = false := by
    obtain ⟨unit, _, splits, begins⟩ := key.exists_head
    rw [splits]
    rintro _ ⟨⟩
    exact begins.notBlank
  induction key generalizing further with
  | last part =>
    cases further with
    | last furtherPart =>
      obtain ⟨sameName, sameRest⟩ := KeyPart.splits same stops stopsAgain
      exact ⟨congrArg (fun name => [name]) sameName, sameRest⟩
    | dotted furtherPart before after furtherOthers =>
      simp only [Key.source, List.append_assoc, List.cons_append] at same
      obtain ⟨-, rfl⟩ := KeyPart.splits same stops (pointStops _)
      exact absurd rfl (ends _ rfl).notPoint
  | dotted part before after keyOthers inductionHypothesis =>
    simp only [Key.source, List.append_assoc, List.cons_append] at same
    cases further with
    | last furtherPart =>
      obtain ⟨-, rfl⟩ := KeyPart.splits same (pointStops _) stopsAgain
      exact absurd rfl (endsAgain _ rfl).notPoint
    | dotted furtherPart furtherBefore furtherAfter furtherOthers =>
      simp only [Key.source, List.append_assoc, List.cons_append] at same
      obtain ⟨sameName, sameRest⟩ := KeyPart.splits same (pointStops _) (pointStops _)
      obtain ⟨samePath, sameOthers⟩ := inductionHypothesis furtherOthers
        (blanks_unique (List.cons.inj sameRest).2 (keyStops _ _) (keyStops _ _))
      exact ⟨congrArg₂ List.cons sameName samePath, sameOthers⟩

/-! ### Values -/

/-- A value is told from what follows it. -/
theorem Value.splits {value further : Value dialect}
    (same : value.source ++ rest = further.source ++ others)
    (closes : Closes rest) (closesAgain : Closes others) :
    value.source = further.source ∧ rest = others := by
  obtain ⟨_, _, run, -⟩ := value.run 0 _ closes
  obtain ⟨_, _, runAgain, -⟩ := further.run 0 _ closesAgain
  rw [← same] at runAgain
  have sameEnd := congrArg (fun result => result.1.stop) (run.unique runAgain)
  simp only [Nat.zero_add] at sameEnd
  exact List.append_inj same sameEnd

theorem endsTrivia_bracket (rest : Text) :
    ∀ unit ∈ ((']' : CodeUnit) :: rest).head?, EndsTrivia unit := by
  rintro _ ⟨⟩
  exact ⟨by decide, by decide⟩

theorem MoreItems.endsTrivia (more : MoreItems dialect) :
    ∀ unit ∈ more.source.head?, EndsTrivia unit := by
  obtain ⟨unit, others, splits, ends, -⟩ := more.exists_head
  rw [splits]
  rintro _ ⟨⟩
  exact ends

theorem MoreItems.closes (gap : Gap dialect) (more : MoreItems dialect) :
    Closes (gap.source ++ more.source) := by
  obtain ⟨unit, others, splits, -, ends⟩ := more.exists_head
  rw [splits]
  exact closes_gap gap (closes_cons ends others)

theorem MorePairs.closes (blanks : Blanks) (more : MorePairs dialect) :
    Closes (blanks.source ++ more.source) := by
  obtain ⟨unit, others, splits, -, ends⟩ := more.exists_head
  rw [splits]
  exact closes_blanks blanks (closes_cons ends others)

theorem MorePairs.notBlank (more : MorePairs dialect) :
    ∀ unit ∈ more.source.head?, unit.isSpaceOrTab = false := by
  obtain ⟨unit, others, splits, notPadding, -⟩ := more.exists_head
  rw [splits]
  rintro _ ⟨⟩
  exact (Bool.or_eq_false_iff.mp notPadding).1

theorem Pair.notBlank (pair : Pair dialect) (rest : Text) :
    ∀ unit ∈ (pair.source ++ rest).head?, unit.isSpaceOrTab = false := by
  obtain ⟨unit, others, splits, begins⟩ := pair.exists_head
  rw [splits]
  rintro _ ⟨⟩
  exact begins.notBlank

/-- The first units of values of the four kinds are apart. -/
inductive Kind where
  | text
  | scalar
  | array
  | inlineTable
  deriving DecidableEq, Repr

/-- The kind of a value that begins with a unit. -/
def kindOf (unit : CodeUnit) : Kind :=
  if isQuote unit then .text else if unit = '[' then .array
  else if unit = '\x7b' then .inlineTable else .scalar

/-- The kind of a value. -/
def Value.kind : Value dialect → Kind
  | .text _ _ _ => .text
  | .scalar _ _ _ => .scalar
  | .array _ => .array
  | .inlineTable _ => .inlineTable

theorem Value.kind_eq (value : Value dialect) {unit : CodeUnit}
    (splits : value.source = unit :: rest) : value.kind = kindOf unit := by
  cases value with
  | text source _ isString =>
    obtain ⟨quote, others, isSource, isQuoted⟩ := isString.exists_head
    rw [Value.source, isSource] at splits
    obtain rfl := (List.cons.inj splits).1
    exact (if_pos isQuoted.isQuote_eq_true).symm
  | scalar word value stands =>
    obtain ⟨first, others, isSource, isScalar⟩ := (dialect.isWord_of_scalar? word value stands).first
    rw [Value.source, isSource] at splits
    obtain rfl := (List.cons.inj splits).1
    have unlike {other : CodeUnit} : isScalarUnit other = false → first ≠ other :=
      isScalarUnit_ne isScalar
    have unquoted : isQuote first = false := Bool.or_eq_false_iff.mpr
      ⟨beq_false_of_ne (unlike (by decide)), beq_false_of_ne (unlike (by decide))⟩
    rw [kindOf, unquoted, if_neg Bool.false_ne_true, if_neg (unlike (by decide)),
      if_neg (unlike (by decide))]
    rfl
  | array items =>
    rw [Value.source] at splits
    obtain rfl := (List.cons.inj splits).1
    rfl
  | inlineTable pairs =>
    rw [Value.source] at splits
    obtain rfl := (List.cons.inj splits).1
    rfl

theorem Value.kind_eq_kind {value further : Value dialect} (same : value.source = further.source) :
    value.kind = further.kind := by
  obtain ⟨unit, rest, splits, -⟩ := value.exists_head
  rw [value.kind_eq splits, further.kind_eq (same ▸ splits)]

mutual

/-- What a value stands for can be told from its source. -/
theorem Value.draft?_unique (value further : Value dialect) (same : value.source = further.source) :
    value.draft? = further.draft? := by
  have sameKind := Value.kind_eq_kind same
  cases value with
  | text source text isString =>
    cases further with
    | text _ _ again =>
      rw [Value.source, Value.source] at same
      subst same
      rw [Value.draft?, Value.draft?, isString.unique again]
    | scalar | array | inlineTable => cases sameKind
  | scalar word scalar stands =>
    cases further with
    | scalar _ _ again =>
      rw [Value.source, Value.source] at same
      subst same
      rw [Value.draft?, Value.draft?, Option.some.inj (stands.symm.trans again)]
    | text | array | inlineTable => cases sameKind
  | array items =>
    cases further with
    | array others =>
      rw [Value.source, Value.source] at same
      rw [Value.draft?, Value.draft?, items.drafts?_unique others (List.cons.inj same).2]
    | text | scalar | inlineTable => cases sameKind
  | inlineTable pairs =>
    cases further with
    | inlineTable others =>
      rw [Value.source, Value.source] at same
      rw [Value.draft?, Value.draft?, pairs.define?_unique others (List.cons.inj same).2]
    | text | scalar | array => cases sameKind

theorem Items.drafts?_unique (items further : Items dialect) (same : items.source = further.source) :
    items.drafts? = further.drafts? := by
  have notClosed (gap before after : Gap dialect) (value : Value dialect) (more : MoreItems dialect) :
      (Items.close gap).source ≠ (Items.item before value after more).source := by
    rw [Items.source, Items.source]
    intro same
    have sameRest := gap_unique same (endsTrivia_bracket []) (value.endsTrivia _)
    have isBracket : (Cursor.mk 0 (value.source ++ (after.source ++ more.source))).isAt ']' = true := by
      rw [← sameRest]
      rfl
    exact value.goesOn (by decide) _ _ (Or.inr isBracket)
  cases items with
  | close gap =>
    cases further with
    | close => rw [Items.drafts?, Items.drafts?]
    | item => exact absurd same (notClosed _ _ _ _ _)
  | item before value after more =>
    cases further with
    | close => exact absurd same.symm (notClosed _ _ _ _ _)
    | item furtherBefore furtherValue furtherAfter furtherMore =>
      rw [Items.source, Items.source] at same
      obtain ⟨sameValue, sameRest⟩ := Value.splits
        (gap_unique same (value.endsTrivia _) (furtherValue.endsTrivia _))
        (MoreItems.closes _ _) (MoreItems.closes _ _)
      rw [Items.drafts?, Items.drafts?, value.draft?_unique furtherValue sameValue,
        more.drafts?_unique furtherMore (gap_unique sameRest more.endsTrivia furtherMore.endsTrivia)]

theorem MoreItems.drafts?_unique (more further : MoreItems dialect)
    (same : more.source = further.source) : more.drafts? = further.drafts? := by
  cases more with
  | close =>
    cases further with
    | close => rfl
    | comma =>
      rw [MoreItems.source, MoreItems.source] at same
      exact absurd (List.cons.inj same).1 (by decide)
  | comma items =>
    cases further with
    | close =>
      rw [MoreItems.source, MoreItems.source] at same
      exact absurd (List.cons.inj same).1 (by decide)
    | comma others =>
      rw [MoreItems.source, MoreItems.source] at same
      rw [MoreItems.drafts?, MoreItems.drafts?, items.drafts?_unique others (List.cons.inj same).2]

theorem Pairs.define?_unique (pairs further : Pairs dialect) (same : pairs.source = further.source) :
    pairs.define? = further.define? := by
  have braceStops : ∀ unit ∈ ([('\x7d' : CodeUnit)] : Text).head?, unit.isSpaceOrTab = false := by
    rintro _ ⟨⟩
    decide
  have notClosed (blanks before after : Blanks) (pair : Pair dialect) (more : MorePairs dialect) :
      (Pairs.close blanks : Pairs dialect).source ≠ (Pairs.pair before pair after more).source := by
    rw [Pairs.source, Pairs.source]
    intro same
    have sameRest := blanks_unique same braceStops (pair.notBlank _)
    exact pair.goesOn 0 (after.source ++ more.source) (Or.inr (by rw [← sameRest]; rfl))
  cases pairs with
  | close =>
    cases further with
    | close => exact funext fun fields => by rw [Pairs.define?, Pairs.define?]
    | pair => exact absurd same (notClosed _ _ _ _ _)
  | pair before pair after more =>
    cases further with
    | close => exact absurd same.symm (notClosed _ _ _ _ _)
    | pair furtherBefore furtherPair furtherAfter furtherMore =>
      rw [Pairs.source, Pairs.source] at same
      obtain ⟨samePair, sameRest⟩ := pair.define?_unique furtherPair
        (blanks_unique same (pair.notBlank _) (furtherPair.notBlank _))
        (MorePairs.closes _ _) (MorePairs.closes _ _)
      funext fields
      rw [Pairs.define?, Pairs.define?, samePair,
        more.define?_unique furtherMore (blanks_unique sameRest more.notBlank furtherMore.notBlank)]

theorem MorePairs.define?_unique (more further : MorePairs dialect)
    (same : more.source = further.source) : more.define? = further.define? := by
  funext fields
  cases more with
  | close =>
    cases further with
    | close => rfl
    | comma =>
      rw [MorePairs.source, MorePairs.source] at same
      exact absurd (List.cons.inj same).1 (by decide)
  | comma pairs =>
    cases further with
    | close =>
      rw [MorePairs.source, MorePairs.source] at same
      exact absurd (List.cons.inj same).1 (by decide)
    | comma others =>
      rw [MorePairs.source, MorePairs.source] at same
      rw [MorePairs.define?, MorePairs.define?, pairs.define?_unique others (List.cons.inj same).2]

/-- What a pair defines can be told from its source, which is told from what follows it. -/
theorem Pair.define?_unique (pair further : Pair dialect) {rest others : Text}
    (same : pair.source ++ rest = further.source ++ others) (closes : Closes rest)
    (closesAgain : Closes others) : pair.define? = further.define? ∧ rest = others := by
  have signEnds (text : Text) : ∀ unit ∈ (('=' : CodeUnit) :: text).head?, EndsKey unit := by
    rintro _ ⟨⟩
    exact ⟨⟨by decide, by decide⟩, by decide, by decide⟩
  have notBlank (value : Value dialect) (text : Text) :
      ∀ unit ∈ (value.source ++ text).head?, unit.isSpaceOrTab = false := fun unit first =>
    not_isSpaceOrTab_of_endsTrivia (value.endsTrivia text unit first)
  cases pair with
  | mk key before after value =>
    cases further with
    | mk furtherKey furtherBefore furtherAfter furtherValue =>
      simp only [Pair.source, List.append_assoc, List.cons_append] at same
      obtain ⟨samePath, sameRest⟩ := key.unique furtherKey same (signEnds _) (signEnds _)
      obtain ⟨sameValue, rfl⟩ := Value.splits
        (blanks_unique (List.cons.inj sameRest).2 (notBlank _ _) (notBlank _ _)) closes closesAgain
      refine ⟨funext fun fields => ?_, rfl⟩
      rw [Pair.define?, Pair.define?, value.draft?_unique furtherValue sameValue, samePath]

end

end Written

end SourceLint.Toml
