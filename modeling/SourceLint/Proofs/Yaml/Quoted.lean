/-
What a quoted scalar means by the rules of YAML, and that a text put in quotes means that text and
nothing else. The rules say of each piece of a scalar what it stands for: a character for itself, a
doubled quote or an escape for its unit, white space around a line break for a space or for the empty
lines in it. On one line there is one way only to take a scalar apart, so that it ends at its closing
quote and has one meaning. In double quotes every text has a form on one line, because what may not
stand there is escaped; in single quotes nothing is escaped, and only texts of characters that may
stand there have a form.
-/
import Mathlib.Data.List.Nodup
import SourceLint.Proofs.Text.Escaped
import SourceLint.Yaml.Node

namespace SourceLint

namespace Yaml

/-! ### Pieces of a quoted scalar -/

/-- A unit on its own that may stand between quotes: a tab, or a character that is no control
character. A half of a surrogate pair is no character. -/
def IsCharacter (unit : CodeUnit) : Prop := (unit = 0x09 ∨ 0x20 ≤ unit) ∧ Text.IsScalar unit.toNat

/-- The escapes of one letter, with the units that they stand for. -/
def letterEscapes : List (CodeUnit × CodeUnit) :=
  [('0', 0x00), ('a', 0x07), ('b', 0x08), ('t', 0x09), (0x09, 0x09), ('n', 0x0A), ('v', 0x0B),
    ('f', 0x0C), ('r', 0x0D), ('e', 0x1B), (0x20, 0x20), (0x22, 0x22), ('/', 0x2F), (0x5C, 0x5C),
    ('N', 0x85), ('_', 0xA0), ('L', 0x2028), ('P', 0x2029)]

/-- The escapes of a number, with how many hexadecimal digits it has. -/
def numberEscapes : List (CodeUnit × Nat) := [('x', 2), ('u', 4), ('U', 8)]

/-- A piece of a quoted scalar within a line, and what it stands for. -/
inductive Piece : ScalarStyle → Text → Text → Prop
  | doubled : Piece .singleQuoted [0x27, 0x27] [0x27]
  | single {unit : CodeUnit} (isCharacter : IsCharacter unit) (notQuote : unit ≠ 0x27) :
      Piece .singleQuoted [unit] [unit]
  | letter {letter meant : CodeUnit} (isEscape : (letter, meant) ∈ letterEscapes) :
      Piece .doubleQuoted [0x5C, letter] [meant]
  | number {sign : CodeUnit} {digits : Text} (isEscape : (sign, digits.length) ∈ numberEscapes)
      (areDigits : ∀ digit ∈ digits, digit.isHexDigit = true)
      (isCodePoint : Text.hexDigitsValue digits ≤ 0x10FFFF) :
      Piece .doubleQuoted (0x5C :: sign :: digits) (Text.ofScalar (Text.hexDigitsValue digits))
  | double {unit : CodeUnit} (isCharacter : IsCharacter unit) (notQuote : unit ≠ 0x22)
      (notBackslash : unit ≠ 0x5C) : Piece .doubleQuoted [unit] [unit]
  | pair {style : ScalarStyle} {high low : CodeUnit} (isHigh : high.isHighSurrogate = true)
      (isLow : low.isLowSurrogate = true) : Piece style [high, low] [high, low]

/-! ### The rules of quoted scalars -/

/-- The sign of a line break. -/
inductive IsBreak : Text → Prop
  | feed : IsBreak [0x0A]
  | carriage : IsBreak [0x0D]
  | both : IsBreak [0x0D, 0x0A]

/-- The white space from the last word of a line to the next word, with a number of empty lines in
between. How far a line is indented is a matter of the place of its scalar and not said here. -/
inductive LineGap : Nat → Text → Prop
  | next {before sign after : Text} (ends : ∀ unit ∈ before, unit.isSpaceOrTab = true)
      (isBreak : IsBreak sign) (begins : ∀ unit ∈ after, unit.isSpaceOrTab = true) :
      LineGap 0 (before ++ sign ++ after)
  | further {before sign gap : Text} {empty : Nat}
      (ends : ∀ unit ∈ before, unit.isSpaceOrTab = true) (isBreak : IsBreak sign)
      (isWhole : sign = [0x0D] → gap.head? ≠ some 0x0A) (more : LineGap empty gap) :
      LineGap (empty + 1) (before ++ sign ++ gap)

/-- What a gap between two words stands for: a space, or its empty lines. -/
def folded (empty : Nat) : Text := if empty = 0 then [0x20] else List.replicate empty 0x0A

/-- A gap between lines stands at the start of a text. -/
def GapAhead (text : Text) : Prop := ∃ empty gap rest, LineGap empty gap ∧ text = gap ++ rest

/-- A text begins with no white space. -/
def NoWhiteAhead (text : Text) : Prop :=
  ∀ unit ∈ text.head?, unit.isSpaceOrTab = false ∧ unit ≠ 0x0A ∧ unit ≠ 0x0D

/-- What stands between the quotes of a style, and the text that it stands for. -/
inductive Inside (style : ScalarStyle) : Text → Text → Prop
  | nothing : Inside style [] []
  | piece {source meant rest text : Text} (isPiece : Piece style source meant)
      (noGap : ¬GapAhead (source ++ rest)) (more : Inside style rest text) :
      Inside style (source ++ rest) (meant ++ text)
  | fold {empty : Nat} {gap rest text : Text} (isGap : LineGap empty gap)
      (isWhole : NoWhiteAhead rest) (more : Inside style rest text) :
      Inside style (gap ++ rest) (folded empty ++ text)
  /-- A backslash before a line break takes the place of the space between the lines. -/
  | joined {empty : Nat} {gap rest text : Text} (isDouble : style = .doubleQuoted)
      (isGap : LineGap empty gap) (atOnce : ∀ unit ∈ gap.head?, unit.isSpaceOrTab = false)
      (isWhole : NoWhiteAhead rest) (more : Inside style rest text) :
      Inside style (0x5C :: (gap ++ rest)) (List.replicate empty 0x0A ++ text)

/-- The quote of a style. -/
def ScalarStyle.quote? : ScalarStyle → Option CodeUnit
  | bare => none
  | singleQuoted => some 0x27
  | doubleQuoted => some 0x22

/-- A quoted scalar with its quotes, and the text that it means. -/
inductive Means (style : ScalarStyle) : Text → Text → Prop
  | quoted {quote : CodeUnit} {inner text : Text} (isQuote : style.quote? = some quote)
      (inside : Inside style inner text) : Means style (quote :: inner ++ [quote]) text

/-- A quote before a text closes a scalar: a single quote does unless another one follows it. -/
def Closes (style : ScalarStyle) (rest : Text) : Prop :=
  style = .singleQuoted → rest.head? ≠ some 0x27

/-- A source is one scalar of a style on one line and nothing else, and a text is all that it means. -/
structure StandsFor (style : ScalarStyle) (source text : Text) : Prop where
  isOneLine : source.OneLine
  means_iff : ∀ meant, Means style source meant ↔ meant = text
  whole : ∀ scalar rest meant, source = scalar ++ rest → Means style scalar meant →
    Closes style rest → rest = []

/-! ### On one line -/

/-- A gap between lines holds the sign of a line break. -/
theorem LineGap.not_isOneLine {empty : Nat} {gap : Text} (isGap : LineGap empty gap) (rest : Text) :
    ¬Text.OneLine (gap ++ rest) := by
  have breaks : ∀ before sign after : Text, IsBreak sign →
      ¬Text.OneLine (before ++ sign ++ after) := by
    rintro before sign after isBreak isOneLine
    have isOneLine : sign.OneLine := isOneLine.of_append.1.of_append.2
    cases isBreak with
    | feed => exact absurd rfl (isOneLine 0x0A List.mem_cons_self).1
    | carriage => exact absurd rfl (isOneLine 0x0D List.mem_cons_self).2
    | both => exact absurd rfl (isOneLine 0x0D List.mem_cons_self).2
  cases isGap with
  | next ends isBreak begins =>
    rw [List.append_assoc]
    exact breaks _ _ _ isBreak
  | further ends isBreak isWhole more =>
    rw [List.append_assoc]
    exact breaks _ _ _ isBreak

theorem not_gapAhead {text : Text} (isOneLine : text.OneLine) : ¬GapAhead text := by
  rintro ⟨empty, gap, rest, isGap, rfl⟩
  exact isGap.not_isOneLine rest isOneLine

/-- A quoted scalar that is on one line is made of pieces only. -/
theorem Inside.inductionOn {style : ScalarStyle} {motive : Text → Text → Prop}
    {inner text : Text} (inside : Inside style inner text) (isOneLine : inner.OneLine)
    (nothing : motive [] [])
    (piece : ∀ source meant rest text, Piece style source meant → Text.OneLine (source ++ rest) →
      Inside style rest text → motive rest text → motive (source ++ rest) (meant ++ text)) :
    motive inner text := by
  induction inside with
  | nothing => exact nothing
  | piece isPiece noGap more inductionHypothesis =>
    exact piece _ _ _ _ isPiece isOneLine more (inductionHypothesis isOneLine.of_append.2)
  | fold isGap => exact absurd isOneLine (isGap.not_isOneLine _)
  | joined isDouble isGap => exact absurd isOneLine.of_cons (isGap.not_isOneLine _)

/-! ### One way to take a scalar apart -/

/-- Halves of surrogate pairs are no characters on their own. -/
theorem not_isScalar_of_isSurrogate {unit : CodeUnit}
    (isHalf : unit.isHighSurrogate = true ∨ unit.isLowSurrogate = true) :
    ¬Text.IsScalar unit.toNat := by
  simp only [CodeUnit.isHighSurrogate, CodeUnit.isLowSurrogate, Bool.and_eq_true, decide_eq_true_eq,
    UInt16.le_iff_toNat_le, UInt16.reduceToNat] at isHalf
  unfold Text.IsScalar
  omega

theorem IsCharacter.not_isHigh {unit : CodeUnit} (isCharacter : IsCharacter unit) :
    unit.isHighSurrogate ≠ true := fun isHigh =>
  not_isScalar_of_isSurrogate (.inl isHigh) isCharacter.2

/-- A half of a surrogate pair is none of the signs of ASCII. -/
theorem ne_of_isSurrogate {unit sign : CodeUnit}
    (isHalf : unit.isHighSurrogate = true ∨ unit.isLowSurrogate = true)
    (isAscii : sign.toNat < 0x80) : unit ≠ sign := by
  rintro rfl
  exact not_isScalar_of_isSurrogate isHalf (Text.isScalar_of_lt isAscii)

/-- No piece begins where a quote closes the scalar. -/
theorem Piece.not_closes {style : ScalarStyle} {quote : CodeUnit} {source meant after rest : Text}
    (isPiece : Piece style source meant) (isQuote : style.quote? = some quote)
    (same : source ++ after = quote :: rest) : ¬Closes style rest := by
  intro closes
  cases isPiece with
  | doubled =>
    cases Option.some.inj isQuote
    exact closes rfl (by rw [← (List.cons.inj same).2]; rfl)
  | single isCharacter notQuote =>
    cases Option.some.inj isQuote
    exact notQuote (List.cons.inj same).1
  | letter isEscape =>
    cases Option.some.inj isQuote
    exact absurd (List.cons.inj same).1 (by decide)
  | number isEscape areDigits isCodePoint =>
    cases Option.some.inj isQuote
    exact absurd (List.cons.inj same).1 (by decide)
  | double isCharacter notQuote notBackslash =>
    cases Option.some.inj isQuote
    exact notQuote (List.cons.inj same).1
  | pair isHigh isLow =>
    have isAscii : quote.toNat < 0x80 := by
      cases style
      all_goals cases isQuote
      all_goals decide
    exact ne_of_isSurrogate (.inl isHigh) isAscii (List.cons.inj same).1

/-- No escape has the letter of another. -/
theorem nodup_escapes : (letterEscapes.map Prod.fst ++ numberEscapes.map Prod.fst).Nodup := by
  decide

theorem letterEscapes_unique {letter meant other : CodeUnit} (left : (letter, meant) ∈ letterEscapes)
    (right : (letter, other) ∈ letterEscapes) : meant = other :=
  congrArg Prod.snd (List.inj_on_of_nodup_map (List.nodup_append.mp nodup_escapes).1 left right rfl)

theorem numberEscapes_unique {sign : CodeUnit} {count other : Nat}
    (left : (sign, count) ∈ numberEscapes) (right : (sign, other) ∈ numberEscapes) :
    count = other :=
  congrArg Prod.snd (List.inj_on_of_nodup_map (List.nodup_append.mp nodup_escapes).2.1 left right rfl)

theorem not_number_of_letter {sign meant : CodeUnit} {count : Nat}
    (left : (sign, meant) ∈ letterEscapes) : (sign, count) ∉ numberEscapes := fun right =>
  (List.nodup_append.mp nodup_escapes).2.2 sign (List.mem_map_of_mem left) sign
    (List.mem_map_of_mem right) rfl

/-- A text begins with one piece at most. -/
theorem Piece.unique {style : ScalarStyle} {source source' meant meant' rest rest' : Text}
    (left : Piece style source meant) (right : Piece style source' meant')
    (same : source ++ rest = source' ++ rest') : source = source' ∧ meant = meant' := by
  cases left with
  | doubled =>
    cases right with
    | doubled => exact ⟨rfl, rfl⟩
    | single _ notQuote => exact absurd (List.cons.inj same).1.symm notQuote
    | pair isHigh =>
      exact absurd (List.cons.inj same).1.symm (ne_of_isSurrogate (.inl isHigh) (by decide))
  | single isCharacter notQuote =>
    cases right with
    | doubled => exact absurd (List.cons.inj same).1 notQuote
    | single => cases (List.cons.inj same).1; exact ⟨rfl, rfl⟩
    | pair isHigh => cases (List.cons.inj same).1; exact absurd isHigh isCharacter.not_isHigh
  | letter isEscape =>
    cases right with
    | letter isEscape' =>
      cases (List.cons.inj (List.cons.inj same).2).1
      rw [letterEscapes_unique isEscape isEscape']
      exact ⟨rfl, rfl⟩
    | number isEscape' =>
      cases (List.cons.inj (List.cons.inj same).2).1
      exact absurd isEscape' (not_number_of_letter isEscape)
    | double _ _ notBackslash => exact absurd (List.cons.inj same).1.symm notBackslash
    | pair isHigh =>
      exact absurd (List.cons.inj same).1.symm (ne_of_isSurrogate (.inl isHigh) (by decide))
  | @number sign digits isEscape =>
    cases right with
    | letter isEscape' =>
      cases (List.cons.inj (List.cons.inj same).2).1
      exact absurd isEscape (not_number_of_letter isEscape')
    | @number _ digits' isEscape' =>
      obtain ⟨rfl, digitsSame⟩ := List.cons.inj (List.cons.inj same).2
      have digitsSame : digits ++ rest = digits' ++ rest' := digitsSame
      cases (List.append_inj digitsSame (numberEscapes_unique isEscape isEscape')).1
      exact ⟨rfl, rfl⟩
    | double _ _ notBackslash => exact absurd (List.cons.inj same).1.symm notBackslash
    | pair isHigh =>
      exact absurd (List.cons.inj same).1.symm (ne_of_isSurrogate (.inl isHigh) (by decide))
  | double isCharacter notQuote notBackslash =>
    cases right with
    | letter => exact absurd (List.cons.inj same).1 notBackslash
    | number => exact absurd (List.cons.inj same).1 notBackslash
    | double => cases (List.cons.inj same).1; exact ⟨rfl, rfl⟩
    | pair isHigh => cases (List.cons.inj same).1; exact absurd isHigh isCharacter.not_isHigh
  | pair isHigh isLow =>
    cases right with
    | doubled => exact absurd (List.cons.inj same).1 (ne_of_isSurrogate (.inl isHigh) (by decide))
    | single isCharacter =>
      cases (List.cons.inj same).1
      exact absurd isHigh isCharacter.not_isHigh
    | letter => exact absurd (List.cons.inj same).1 (ne_of_isSurrogate (.inl isHigh) (by decide))
    | number => exact absurd (List.cons.inj same).1 (ne_of_isSurrogate (.inl isHigh) (by decide))
    | double isCharacter =>
      cases (List.cons.inj same).1
      exact absurd isHigh isCharacter.not_isHigh
    | pair =>
      obtain ⟨isHigh, same⟩ := List.cons.inj same
      rw [isHigh, (List.cons.inj same).1]
      exact ⟨rfl, rfl⟩

/-- Two scalars on one line that begin at one place end at one quote and mean the same. -/
theorem Inside.unique {style : ScalarStyle} {quote : CodeUnit} (isQuote : style.quote? = some quote)
    {inner inner' text text' rest rest' : Text} (left : Inside style inner text)
    (right : Inside style inner' text') (same : inner ++ quote :: rest = inner' ++ quote :: rest')
    (isOneLine : inner.OneLine) (isOneLine' : inner'.OneLine) (closes : Closes style rest)
    (closes' : Closes style rest') : inner = inner' ∧ text = text' := by
  refine left.inductionOn isOneLine (motive := fun inner text => ∀ inner' text',
    Inside style inner' text' → inner'.OneLine → inner ++ quote :: rest = inner' ++ quote :: rest' →
    inner = inner' ∧ text = text') ?_ ?_ inner' text' right isOneLine' same
  · intro inner' text' right isOneLine' same
    cases right with
    | nothing => exact ⟨rfl, rfl⟩
    | piece isPiece _ _ =>
      rw [List.append_assoc] at same
      exact absurd closes (isPiece.not_closes isQuote same.symm)
    | fold isGap => exact absurd isOneLine' (isGap.not_isOneLine _)
    | joined _ isGap => exact absurd isOneLine'.of_cons (isGap.not_isOneLine _)
  · intro source meant after text isPiece _ _ inductionHypothesis inner' text' right isOneLine' same
    cases right with
    | nothing =>
      rw [List.append_assoc] at same
      exact absurd closes' (isPiece.not_closes isQuote same)
    | piece isPiece' _ more' =>
      rw [List.append_assoc, List.append_assoc] at same
      obtain ⟨rfl, rfl⟩ := isPiece.unique isPiece' same
      obtain ⟨rfl, rfl⟩ := inductionHypothesis _ _ more' isOneLine'.of_append.2
        (List.append_cancel_left same)
      exact ⟨rfl, rfl⟩
    | fold isGap => exact absurd isOneLine' (isGap.not_isOneLine _)
    | joined _ isGap => exact absurd isOneLine'.of_cons (isGap.not_isOneLine _)

/-- What a scalar on one line means is all that it means, and it ends at its closing quote. -/
theorem Means.standsFor {style : ScalarStyle} {source text : Text} (means : Means style source text)
    (isOneLine : source.OneLine) : StandsFor style source text := by
  obtain ⟨isQuote, inside⟩ := means
  rename_i quote inner
  have ends : Closes style [] := fun _ => by simp
  have unique : ∀ scalar rest meant, quote :: inner ++ [quote] = scalar ++ rest →
      Means style scalar meant → Closes style rest →
      scalar = quote :: inner ++ [quote] ∧ meant = text := by
    rintro scalar rest meant same ⟨isQuote', inside'⟩ closes
    rename_i quote' inner'
    cases Option.some.inj (isQuote.symm.trans isQuote')
    have isOneLine' : inner'.OneLine := by
      rw [same, List.cons_append, List.cons_append, List.append_assoc] at isOneLine
      exact isOneLine.of_cons.of_append.1
    rw [List.cons_append, List.cons_append, List.cons_append, List.append_assoc] at same
    obtain ⟨rfl, rfl⟩ := inside.unique isQuote inside' (List.cons.inj same).2
      isOneLine.of_append.1.of_cons isOneLine' ends closes
    exact ⟨rfl, rfl⟩
  refine ⟨isOneLine, fun meant => ⟨fun means' => ?_, ?_⟩, fun scalar rest meant same means' closes => ?_⟩
  · exact (unique _ [] meant (List.append_nil _).symm means' ends).2
  · rintro rfl
    exact .quoted isQuote inside
  · rw [(unique scalar rest meant same means' closes).1] at same
    exact List.self_eq_append_right.mp same

/-! ### Double quotes -/

/-- A piece before what stands between quotes on one line. -/
theorem Inside.of_piece {style : ScalarStyle} {source meant rest text : Text}
    (isPiece : Piece style source meant) (isOneLine : Text.OneLine (source ++ rest))
    (more : Inside style rest text) : Inside style (source ++ rest) (meant ++ text) :=
  .piece isPiece (not_gapAhead isOneLine) more

/-- The written form of a unit is one piece that stands for the unit. -/
theorem piece_escapeUnit (unit : CodeUnit) : Piece .doubleQuoted (Text.escapeUnit unit) [unit] := by
  rw [Text.escapeUnit]
  split_ifs with isQuote isBackslash isBackspace isTab isFeed isForm isReturn isNumbered
  iterate 7
    subst unit
    exact .letter (by decide)
  · have value := Text.hexDigitsValue_hexDigits unit
    have bound := unit.toNat_lt
    have isPiece : Piece .doubleQuoted (0x5C :: 'u' :: Text.hexDigits unit) _ :=
      .number (List.mem_cons_of_mem _ List.mem_cons_self)
        (fun _ => Text.isHexDigit_of_mem_hexDigits) (by omega)
    rwa [value, Text.ofScalar_toNat] at isPiece
  · simp only [Bool.or_eq_true, decide_eq_true_eq, not_or, UInt16.not_lt] at isNumbered
    refine .double ⟨.inr isNumbered.1.1, ?_⟩ isQuote isBackslash
    have notHigh := isNumbered.1.2
    have notLow := isNumbered.2
    have bound := unit.toNat_lt
    simp only [CodeUnit.isHighSurrogate, CodeUnit.isLowSurrogate, Bool.and_eq_true,
      decide_eq_true_eq, UInt16.le_iff_toNat_le, UInt16.reduceToNat] at notHigh notLow
    unfold Text.IsScalar
    omega

/-- The written form of a text is on one line. -/
theorem isOneLine_escaped (text : Text) : text.escaped.OneLine :=
  Text.isOneLine_of_le text.escaped_spec.1

/-- The written form of a text stands for the text. -/
theorem Inside.escaped (text : Text) : Inside .doubleQuoted text.escaped text := by
  have isOneLine := isOneLine_escaped text
  revert isOneLine
  refine Text.inductionOnEscaped text (fun _ => .nothing) ?_ ?_
  · intro unit rest inductionHypothesis isOneLine
    exact .of_piece (piece_escapeUnit unit) isOneLine (inductionHypothesis isOneLine.of_append.2)
  · intro high low rest isHigh isLow inductionHypothesis isOneLine
    exact .of_piece (.pair isHigh isLow) isOneLine (inductionHypothesis isOneLine.of_cons.of_cons)

/-- A text in double quotes stands for that text. -/
theorem standsFor_quote (text : Text) : StandsFor .doubleQuoted text.quote text := by
  have isQuote : Text.OneLine "\"" := by decide
  exact Means.standsFor (.quoted rfl (.escaped text))
    ((isQuote.append (isOneLine_escaped text)).append isQuote)

/-! ### Single quotes -/

/-- A text with its quotes doubled, as it stands between single quotes. -/
def doubleQuotes (text : Text) : Text :=
  text.flatMap fun unit => if unit = 0x27 then [0x27, 0x27] else [unit]

theorem doubleQuotes_cons_quote (rest : Text) :
    doubleQuotes (0x27 :: rest) = 0x27 :: 0x27 :: doubleQuotes rest := rfl

theorem doubleQuotes_cons_of_ne {unit : CodeUnit} (notQuote : unit ≠ 0x27) (rest : Text) :
    doubleQuotes (unit :: rest) = unit :: doubleQuotes rest := by
  rw [doubleQuotes, List.flatMap_cons, if_neg notQuote]
  rfl

/-- A text is on one line exactly if it is with its quotes doubled. -/
theorem isOneLine_doubleQuotes_iff {text : Text} :
    Text.OneLine (doubleQuotes text) ↔ text.OneLine := by
  constructor
  · intro isOneLine unit member
    refine isOneLine unit (List.mem_flatMap.mpr ⟨unit, member, ?_⟩)
    split_ifs with isQuote
    · rw [isQuote]
      exact List.mem_cons_self
    · exact List.mem_singleton_self unit
  · intro isOneLine unit member
    obtain ⟨other, isOther, isUnit⟩ := List.mem_flatMap.mp member
    split_ifs at isUnit with isQuote
    · simp only [List.mem_cons, List.not_mem_nil, or_false, or_self] at isUnit
      rw [isUnit]
      decide
    · rw [List.mem_singleton.mp isUnit]
      exact isOneLine other isOther

theorem doubleQuotes_injective : Function.Injective doubleQuotes := by
  intro left
  induction left with
  | nil =>
    intro right same
    cases right with
    | nil => rfl
    | cons unit rest =>
      by_cases isQuote : unit = 0x27
      · rw [isQuote, doubleQuotes_cons_quote] at same
        cases same
      · rw [doubleQuotes_cons_of_ne isQuote] at same
        cases same
  | cons unit left inductionHypothesis =>
    intro right same
    have starts : ∀ unit rest, (doubleQuotes (unit :: rest)).head? = some unit := by
      intro unit rest
      by_cases isQuote : unit = 0x27
      · rw [isQuote, doubleQuotes_cons_quote, List.head?_cons]
      · rw [doubleQuotes_cons_of_ne isQuote, List.head?_cons]
    cases right with
    | nil =>
      have isFirst := starts unit left
      rw [same] at isFirst
      cases isFirst
    | cons other right =>
      have isFirst := starts unit left
      rw [same, starts] at isFirst
      cases Option.some.inj isFirst
      by_cases isQuote : unit = 0x27
      · subst isQuote
        rw [doubleQuotes_cons_quote, doubleQuotes_cons_quote] at same
        rw [inductionHypothesis (List.cons.inj (List.cons.inj same).2).2]
      · rw [doubleQuotes_cons_of_ne isQuote, doubleQuotes_cons_of_ne isQuote] at same
        rw [inductionHypothesis (List.cons.inj same).2]

/-- What stands between single quotes on one line is its text with the quotes doubled, and that text
holds nothing but characters that may stand there. -/
theorem Inside.eq_doubleQuotes {inner text : Text} (inside : Inside .singleQuoted inner text)
    (isOneLine : inner.OneLine) : inner = doubleQuotes text ∧ text.Quotable := by
  refine inside.inductionOn isOneLine
    (motive := fun inner text => inner = doubleQuotes text ∧ text.Quotable) ?_ ?_
  · exact ⟨rfl, fun _ member => absurd member List.not_mem_nil, .nil⟩
  · rintro source meant rest text isPiece - - ⟨rfl, areAllowed, paired⟩
    cases isPiece with
    | doubled =>
      exact ⟨rfl, List.forall_mem_cons.mpr ⟨by decide, areAllowed⟩,
        .unit (Text.isScalar_of_lt (by decide)) paired⟩
    | single isCharacter notQuote =>
      exact ⟨(doubleQuotes_cons_of_ne notQuote text).symm,
        List.forall_mem_cons.mpr ⟨isCharacter.1, areAllowed⟩, .unit isCharacter.2 paired⟩
    | pair isHigh isLow =>
      have notQuote : ∀ unit : CodeUnit, unit.isHighSurrogate = true ∨ unit.isLowSurrogate = true →
          unit ≠ 0x27 := fun unit isHalf => ne_of_isSurrogate isHalf (by decide)
      have isAllowed : ∀ unit : CodeUnit, unit.isHighSurrogate = true ∨ unit.isLowSurrogate = true →
          unit = 0x09 ∨ 0x20 ≤ unit := fun unit isHalf =>
        .inr (UInt16.le_iff_toNat_le.mpr
          (Nat.le_trans (by decide : 0x20 ≤ 0xD800) (Text.le_of_isSurrogate isHalf)))
      refine ⟨?_, List.forall_mem_cons.mpr ⟨isAllowed _ (.inl isHigh),
        List.forall_mem_cons.mpr ⟨isAllowed _ (.inr isLow), areAllowed⟩⟩, .pair isHigh isLow paired⟩
      rw [List.cons_append, List.cons_append, List.nil_append, List.cons_append, List.cons_append,
        List.nil_append, doubleQuotes_cons_of_ne (notQuote _ (.inl isHigh)),
        doubleQuotes_cons_of_ne (notQuote _ (.inr isLow))]

/-- A text on one line of characters that may stand between single quotes stands there with its quotes
doubled. -/
theorem Inside.doubleQuotes {text : Text} (isOneLine : text.OneLine) (quotable : text.Quotable) :
    Inside .singleQuoted (doubleQuotes text) text := by
  obtain ⟨areAllowed, paired⟩ := quotable
  induction paired with
  | nil => exact .nothing
  | @unit unit rest isScalar more inductionHypothesis =>
    obtain ⟨isAllowed, areAllowed⟩ := List.forall_mem_cons.mp areAllowed
    have inside := inductionHypothesis isOneLine.of_cons areAllowed
    have onLine := isOneLine_doubleQuotes_iff.mpr isOneLine
    by_cases isQuote : unit = 0x27
    · subst isQuote
      exact .of_piece .doubled onLine inside
    · rw [doubleQuotes_cons_of_ne isQuote] at onLine ⊢
      exact .of_piece (.single ⟨isAllowed, isScalar⟩ isQuote) onLine inside
  | @pair high low rest isHigh isLow more inductionHypothesis =>
    have inside := inductionHypothesis isOneLine.of_cons.of_cons
      (List.forall_mem_cons.mp (List.forall_mem_cons.mp areAllowed).2).2
    have onLine := isOneLine_doubleQuotes_iff.mpr isOneLine
    have notQuote : ∀ unit : CodeUnit, unit.isHighSurrogate = true ∨ unit.isLowSurrogate = true →
        unit ≠ 0x27 := fun unit isHalf => ne_of_isSurrogate isHalf (by decide)
    rw [doubleQuotes_cons_of_ne (notQuote _ (.inl isHigh)),
      doubleQuotes_cons_of_ne (notQuote _ (.inr isLow))] at onLine ⊢
    exact .of_piece (.pair isHigh isLow) onLine inside

/-- A text on one line in single quotes means that text, if it may stand there, and else nothing. -/
theorem means_singleQuotes_iff {text : Text} (isOneLine : text.OneLine) (meant : Text) :
    Means .singleQuoted (0x27 :: doubleQuotes text ++ [0x27]) meant ↔
      meant = text ∧ text.Quotable := by
  constructor
  · generalize whole : 0x27 :: doubleQuotes text ++ [0x27] = source
    rintro ⟨isQuote, inside⟩
    rename_i quote inner
    cases Option.some.inj isQuote
    obtain rfl : doubleQuotes text = inner :=
      List.append_cancel_right ((List.cons.inj whole).2 : _ ++ _ = _ ++ _)
    obtain ⟨same, quotable⟩ := inside.eq_doubleQuotes (isOneLine_doubleQuotes_iff.mpr isOneLine)
    cases doubleQuotes_injective same
    exact ⟨rfl, quotable⟩
  · rintro ⟨rfl, quotable⟩
    exact .quoted rfl (.doubleQuotes isOneLine quotable)

/-- A text on one line that may stand between single quotes stands there for itself. -/
theorem standsFor_singleQuotes {text : Text} (isOneLine : text.OneLine) (quotable : text.Quotable) :
    StandsFor .singleQuoted (0x27 :: doubleQuotes text ++ [0x27]) text := by
  have isQuote : Text.OneLine [0x27] := by decide
  exact Means.standsFor ((means_singleQuotes_iff isOneLine text).mpr ⟨rfl, quotable⟩)
    ((isQuote.append (isOneLine_doubleQuotes_iff.mpr isOneLine)).append isQuote)

/-- What is written in place of a quoted scalar, in quotes of its kind, stands for the text that was
to be written: in double quotes always, and in single quotes exactly if the text, which is on one line,
holds no control character but tabs and no half of a surrogate pair, since nothing is escaped there. -/
theorem requote_standsFor_iff (content : Content) {style : ScalarStyle} (span : Span) {text : Text}
    (isQuoted : style = .doubleQuoted ∨ style = .singleQuoted ∧ text.OneLine) :
    StandsFor style ((Node.scalar content style span).requote text) text ↔
      style = .doubleQuoted ∨ text.Quotable := by
  obtain rfl | ⟨rfl, isOneLine⟩ := isQuoted
  · exact iff_of_true (standsFor_quote text) (.inl rfl)
  · constructor
    · intro standsFor
      exact .inr ((means_singleQuotes_iff isOneLine text).mp ((standsFor.means_iff text).mpr rfl)).2
    · intro quotable
      exact standsFor_singleQuotes isOneLine (quotable.resolve_left (by decide))

/-- Both quotes, a backslash, a line break, a control character and half of a surrogate pair, with
blanks on both sides. -/
def mixed : Text := Text.ofString " 'a\"\\\n\x01" ++ [0xD83D, 0x20]

theorem requote_standsFor_iff_mixed :
    (Node.scalar .other .doubleQuoted ⟨0, 0⟩).requote mixed = "\" 'a\\\"\\\\\\n\\u0001\\ud83d \"" ∧
      StandsFor .doubleQuoted ((Node.scalar .other .doubleQuoted ⟨0, 0⟩).requote mixed) mixed ∧
      (Node.scalar .other .singleQuoted ⟨0, 0⟩).requote " it's\\ " = "' it''s\\ '" ∧
      StandsFor .singleQuoted ((Node.scalar .other .singleQuoted ⟨0, 0⟩).requote " it's\\ ")
        " it's\\ " := by
  refine ⟨by decide +kernel, (requote_standsFor_iff .other ⟨0, 0⟩ (.inl rfl)).mpr (.inl rfl),
    by decide +kernel,
    (requote_standsFor_iff .other ⟨0, 0⟩ (.inr ⟨rfl, by decide⟩)).mpr (.inr ⟨by decide, ?_⟩)⟩
  exact Text.paired_of_ascii (by decide)

/-- A control character in single quotes means nothing, although it is no line break. -/
theorem not_means_requote_control :
    Text.OneLine [0x01] ∧
      (Node.scalar .other .singleQuoted ⟨0, 0⟩).requote [0x01] = [0x27, 0x01, 0x27] ∧
      ∀ meant, ¬Means .singleQuoted ((Node.scalar .other .singleQuoted ⟨0, 0⟩).requote [0x01])
        meant := by
  refine ⟨by decide, rfl, fun meant means => ?_⟩
  obtain ⟨-, areAllowed, -⟩ := (means_singleQuotes_iff (by decide : Text.OneLine [0x01]) meant).mp means
  exact absurd (areAllowed 0x01 List.mem_cons_self) (by decide)

end Yaml

end SourceLint
