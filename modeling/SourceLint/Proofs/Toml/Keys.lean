/-
This file proves that the layout scanner takes keys and words as they are written. It does not resolve
the escapes in keys that give the number of a character; keys without them it takes for what they
stand for, and it takes no other key for a path without backslashes.
-/
import SourceLint.Proofs.Toml.Places
import SourceLint.Proofs.Toml.ScannerRun
import SourceLint.Proofs.Toml.Tokens

namespace SourceLint.Toml

open Cursor (isLayoutUnit)

variable {dialect : Dialect} {rest : Text} {position : Nat}

/-! ### Keys -/

namespace Written

/-- What the scanner takes a part of a key for. -/
def KeyPart.scanned : KeyPart dialect → Text
  | bare name _ _ => name
  | quoted quote rest _ _ _ => if quote = doubleQuote then unescapeKey rest.dropLast else rest.dropLast

/-- What the scanner takes a key for. -/
def Key.scanned : Key dialect → List Text
  | last part => [part.scanned]
  | dotted part _ _ others => part.scanned :: others.scanned

end Written

/-- A unit that a part of a key may not go on with. -/
def EndsPart (unit : CodeUnit) : Prop := isBareKeyUnit unit = false ∧ isQuote unit = false

/-- A unit that a key may not go on with. -/
structure EndsKey (unit : CodeUnit) : Prop where
  endsPart : EndsPart unit
  notBlank : unit.isSpaceOrTab = false
  notPoint : unit ≠ '.'

theorem endsPart_of_isSpaceOrTab {unit : CodeUnit} (isBlank : unit.isSpaceOrTab = true) :
    EndsPart unit := by
  rcases Bool.or_eq_true_iff.mp isBlank with isSpace | isTab
  · exact eq_of_beq isSpace ▸ ⟨by decide, by decide⟩
  · exact eq_of_beq isTab ▸ ⟨by decide, by decide⟩

/-- Behind a part of a key stand blanks, or what ends the part. -/
theorem endsPart_of_blanks (blanks : Blanks) (ends : ∀ unit ∈ rest.head?, EndsPart unit) :
    ∀ unit ∈ (blanks.source ++ rest).head?, EndsPart unit := by
  obtain ⟨source, areBlank⟩ := blanks
  cases source with
  | nil => exact ends
  | cons unit source =>
    rintro unit ⟨⟩
    exact endsPart_of_isSpaceOrTab (areBlank _ List.mem_cons_self)

theorem skipSpace_blanks (blanks : Blanks) (position : Nat) (rest : Text) :
    (Cursor.mk position (blanks.source ++ rest)).skipSpace =
      (Cursor.mk (position + blanks.source.length) rest).skipSpace :=
  Cursor.skipWhile_append blanks.areBlank

/-- Blanks are skipped up to what is no blank. -/
theorem skipSpace_blanks_eq (blanks : Blanks) (position : Nat) (rest : Text)
    (stops : ∀ unit ∈ rest.head?, unit.isSpaceOrTab = false) :
    (Cursor.mk position (blanks.source ++ rest)).skipSpace =
      ⟨position + blanks.source.length, rest⟩ :=
  (skipSpace_blanks blanks position rest).trans (Cursor.skipWhile_eq_self stops)

theorem IsQuote.not_isBareKeyUnit {quote : CodeUnit} (isQuoted : IsQuote quote) :
    isBareKeyUnit quote = false := by
  obtain rfl | rfl := isQuoted <;> decide

theorem not_isQuote_of_isBareKeyUnit {unit : CodeUnit} (isBare : isBareKeyUnit unit = true) :
    isQuote unit = false := by
  refine Bool.or_eq_false_iff.mpr ⟨beq_false_of_ne ?_, beq_false_of_ne ?_⟩ <;>
    rintro rfl <;> exact absurd isBare (by decide)

theorem readKeyPart_eq (part : Written.KeyPart dialect) (position : Nat)
    (ends : ∀ unit ∈ rest.head?, EndsPart unit) :
    (Cursor.mk position (part.source ++ rest)).readKeyPart =
      (part.scanned, ⟨position + part.source.length, rest⟩) := by
  cases part with
  | bare name notEmpty areUnits =>
    have stops : rest.takeWhile isBareKeyUnit = [] := by
      cases rest with
      | nil => rfl
      | cons unit rest => exact List.takeWhile_cons_of_neg (by simp [(ends unit rfl).1])
    have taken : (name ++ rest).takeWhile isBareKeyUnit = name := by
      rw [List.takeWhile_append_of_pos areUnits, stops, List.append_nil]
    obtain ⟨unit, others, rfl⟩ := List.exists_cons_of_ne_nil notEmpty
    have unquoted := not_isQuote_of_isBareKeyUnit (areUnits unit List.mem_cons_self)
    rw [Cursor.readKeyPart]
    change (if isQuote unit = true then _ else _) = _
    rw [if_neg (by simp [unquoted])]
    dsimp only [Written.KeyPart.source]
    rw [taken, Cursor.advance_append]
    rfl
  | quoted quote source name isQuoted body =>
    have length := stringLength_line isQuoted body
      (isQuoted.head?_ne fun unit first => (ends unit first).2)
    have raw : (source ++ rest).take ((quote :: source).length - 2) = source.dropLast := by
      rw [List.length_cons, List.dropLast_eq_take, List.take_append_of_le_length (by omega)]
      rfl
    rw [Cursor.readKeyPart]
    change (if isQuote quote = true then _ else _) = _
    rw [if_pos isQuoted.isQuote_eq_true]
    dsimp only [Written.KeyPart.source]
    rw [length, Cursor.advance_append]
    change (if quote = 34 then unescapeKey (List.take _ (source ++ rest))
      else List.take _ (source ++ rest), _) = _
    rw [raw]
    rfl

/-- A unit that a key may begin with. -/
def BeginsKey (unit : CodeUnit) : Prop := isBareKeyUnit unit = true ∨ IsQuote unit

theorem BeginsKey.ne {unit other : CodeUnit} (begins : BeginsKey unit)
    (notBare : isBareKeyUnit other = false) (notQuote : ¬IsQuote other) : unit ≠ other := by
  rintro rfl
  rcases begins with isBare | isQuoted
  · exact absurd (notBare.symm.trans isBare) (by decide)
  · exact notQuote isQuoted

instance (unit : CodeUnit) : Decidable (IsQuote unit) := inferInstanceAs (Decidable (_ ∨ _))

theorem BeginsKey.notBlank {unit : CodeUnit} (begins : BeginsKey unit) :
    unit.isSpaceOrTab = false :=
  Bool.or_eq_false_iff.mpr ⟨beq_false_of_ne (begins.ne (by decide) (by decide)),
    beq_false_of_ne (begins.ne (by decide) (by decide))⟩

namespace Written

theorem KeyPart.exists_head (part : KeyPart dialect) :
    ∃ unit rest, part.source = unit :: rest ∧ BeginsKey unit := by
  cases part with
  | bare name notEmpty areUnits =>
    obtain ⟨unit, others, rfl⟩ := List.exists_cons_of_ne_nil notEmpty
    exact ⟨unit, others, rfl, Or.inl (areUnits unit List.mem_cons_self)⟩
  | quoted quote source name isQuoted => exact ⟨quote, source, rfl, Or.inr isQuoted⟩

theorem Key.exists_head (key : Key dialect) :
    ∃ unit rest, key.source = unit :: rest ∧ BeginsKey unit := by
  cases key with
  | last part => exact part.exists_head
  | dotted part before after others =>
    obtain ⟨unit, rest, same, begins⟩ := part.exists_head
    exact ⟨unit, _, by rw [source, same]; rfl, begins⟩

end Written

/-- Blanks before a key are skipped up to it. -/
theorem skipSpace_key (blanks : Blanks) (key : Written.Key dialect) (position : Nat) (rest : Text) :
    (Cursor.mk position (blanks.source ++ (key.source ++ rest))).skipSpace =
      ⟨position + blanks.source.length, key.source ++ rest⟩ := by
  obtain ⟨unit, others, same, begins⟩ := key.exists_head
  refine skipSpace_blanks_eq blanks position _ fun first isFirst => ?_
  rw [same] at isFirst
  cases isFirst
  exact begins.notBlank

/-- The loop over the parts of a key behind its first, with the blanks behind the key. -/
theorem keyParts_key (key : Written.Key dialect) (blanks : Blanks) (position : Nat)
    (ends : ∀ unit ∈ rest.head?, EndsKey unit) :
    let first := (Cursor.mk position (key.source ++ (blanks.source ++ rest))).readKeyPart
    ∃ parts, key.scanned = first.1 :: parts ∧ Cursor.KeyParts first.2.skipSpace
      (parts, ⟨position + key.source.length + blanks.source.length, rest⟩) := by
  have stops : ∀ unit ∈ rest.head?, EndsPart unit := fun unit first => (ends unit first).endsPart
  have notBlank : ∀ unit ∈ rest.head?, unit.isSpaceOrTab = false := fun unit first =>
    (ends unit first).notBlank
  induction key generalizing position with
  | last part =>
    dsimp only [Written.Key.source]
    rw [readKeyPart_eq part position (endsPart_of_blanks blanks stops)]
    dsimp only
    rw [skipSpace_blanks_eq blanks _ _ notBlank]
    refine ⟨[], rfl, .done ?_⟩
    rw [Cursor.isAt, beq_eq_false_iff_ne]
    exact fun isPoint => (ends _ isPoint).notPoint rfl
  | dotted part before after others inductionHypothesis =>
    set left := others.source ++ (blanks.source ++ rest) with isLeft
    have toPoint : ∀ unit ∈ (('.' : CodeUnit) :: (after.source ++ left)).head?,
        EndsPart unit ∧ unit.isSpaceOrTab = false := by
      rintro unit ⟨⟩
      exact ⟨⟨by decide, by decide⟩, by decide⟩
    have whole : (Written.Key.dotted part before after others).source ++ (blanks.source ++ rest) =
        part.source ++ (before.source ++ ('.' : CodeUnit) :: (after.source ++ left)) := by
      simp only [Written.Key.source, isLeft, List.append_assoc, List.cons_append]
    have behind : ((Cursor.mk (position + part.source.length + before.source.length)
        (('.' : CodeUnit) :: (after.source ++ left))).advance 1).skipSpace = _ :=
      skipSpace_key after others (position + part.source.length + before.source.length + 1) _
    rw [whole]
    dsimp only
    rw [readKeyPart_eq part position
      (endsPart_of_blanks before fun unit first => (toPoint unit first).1)]
    dsimp only
    rw [skipSpace_blanks_eq before _ _ fun unit first => (toPoint unit first).2]
    obtain ⟨parts, scanned, rest⟩ := inductionHypothesis
      (position + part.source.length + before.source.length + 1 + after.source.length)
    refine ⟨others.scanned, rfl, ?_⟩
    have point : (Cursor.mk (position + part.source.length + before.source.length)
        (('.' : CodeUnit) :: (after.source ++ left))).isAt '.' = true := by
      rw [Cursor.isAt_cons _ rfl, beq_self_eq_true]
    rw [scanned]
    have turn := Cursor.KeyParts.turn point (Cursor.lt_readKeyPart_behind_point _) (behind ▸ rest)
    rw [behind] at turn
    simp only [Written.Key.source, List.length_append, List.length_cons] at turn ⊢
    convert turn using 3
    omega

/-- The scanner takes a key with the blanks behind it. -/
theorem keyRun_key (key : Written.Key dialect) (blanks : Blanks) (position : Nat) (rest : Text)
    (ends : ∀ unit ∈ rest.head?, EndsKey unit) :
    Cursor.KeyRun ⟨position, key.source ++ (blanks.source ++ rest)⟩
      (key.scanned, ⟨position + key.source.length + blanks.source.length, rest⟩) := by
  obtain ⟨parts, scanned, run⟩ := keyParts_key key blanks position ends
  rw [scanned]
  exact .key run

/-! ### Keys that the scanner takes for what they stand for -/

theorem Body.ne_nil {quote : CodeUnit} {multiline numeric : Bool} {source text : Text}
    (body : Body dialect quote multiline numeric source text) : source ≠ [] := by
  rintro rfl
  cases multiline <;> cases body.length_quotes_le

theorem unescapeKey_cons {unit : CodeUnit} (plain : unit ≠ backslash) (rest : Text) :
    unescapeKey (unit :: rest) = unit :: unescapeKey rest := by
  cases rest with
  | nil => rfl
  | cons next rest =>
    rw [unescapeKey]
    exact if_neg plain

/-- The scanner resolves the escapes of one letter as they are meant. -/
theorem keyEscape?_eq {letter meant : CodeUnit} (isShort : (letter, meant) ∈ shortEscapes) :
    keyEscape? letter = some meant := by
  simp only [shortEscapes, List.mem_cons, List.not_mem_nil, or_false, Prod.mk.injEq] at isShort
  rcases isShort with ⟨rfl, rfl⟩ | ⟨rfl, rfl⟩ | ⟨rfl, rfl⟩ | ⟨rfl, rfl⟩ | ⟨rfl, rfl⟩ | ⟨rfl, rfl⟩ |
    ⟨rfl, rfl⟩ <;> decide

theorem unescapeKey_short {letter meant : CodeUnit} (isShort : (letter, meant) ∈ shortEscapes)
    (rest : Text) : unescapeKey (backslash :: letter :: rest) = meant :: unescapeKey rest := by
  rw [unescapeKey, if_pos (show backslash = 0x5C from rfl), keyEscape?_eq isShort]

theorem backslash_mem_unescapeKey_numeric {letter : CodeUnit} {count : Nat}
    (isNumeric : (letter, count) ∈ numericEscapes) (rest : Text) :
    backslash ∈ unescapeKey (backslash :: letter :: rest) := by
  have unknown : keyEscape? letter = none := by
    simp only [numericEscapes, List.mem_cons, List.not_mem_nil, or_false, Prod.mk.injEq] at isNumeric
    rcases isNumeric with ⟨rfl, -⟩ | ⟨rfl, -⟩ <;> decide
  rw [unescapeKey, if_pos (show backslash = 0x5C from rfl), unknown]
  exact List.mem_cons_self

namespace Body

variable {rest name : Text}

theorem unescapeKey_eq (body : Body dialect doubleQuote false false rest name) :
    unescapeKey rest.dropLast = name := by
  induction body with
  | close => rfl
  | unit _ _ plain more inductionHypothesis =>
    rw [List.dropLast_cons_of_ne_nil more.ne_nil, unescapeKey_cons (plain rfl), inductionHypothesis]
  | @escape _ _ rest _ _ escapes more inductionHypothesis =>
    cases escapes with
    | @short letter _ isShort =>
      change unescapeKey (backslash :: letter :: rest).dropLast = _
      rw [List.dropLast_cons_of_ne_nil (List.cons_ne_nil _ _), List.dropLast_cons_of_ne_nil more.ne_nil,
        unescapeKey_short isShort, inductionHypothesis]
      rfl
    | number counts => cases counts
  | newline isMultiline => cases isMultiline
  | joined _ isMultiline => cases isMultiline

theorem dropLast_eq {numeric : Bool} (body : Body dialect singleQuote false numeric rest name) :
    rest.dropLast = name := by
  induction body with
  | close => rfl
  | unit _ _ _ more inductionHypothesis =>
    rw [List.dropLast_cons_of_ne_nil more.ne_nil, inductionHypothesis]
  | escape isDouble => exact absurd isDouble (by decide)
  | newline isMultiline => cases isMultiline
  | joined isDouble => exact absurd isDouble (by decide)

/-- A key that the scanner takes for one without backslashes has no escapes that it leaves alone. -/
theorem of_scanned_double (body : Body dialect doubleQuote false true rest name)
    (plain : backslash ∉ unescapeKey rest.dropLast) :
    Body dialect doubleQuote false false rest name := by
  induction body with
  | close => exact .close
  | unit allowed goesOn noEscape more inductionHypothesis =>
    rw [List.dropLast_cons_of_ne_nil more.ne_nil, unescapeKey_cons (noEscape rfl)] at plain
    exact .unit allowed goesOn noEscape
      (inductionHypothesis fun member => plain (List.mem_cons_of_mem _ member))
  | @escape _ _ rest _ isDouble escapes more inductionHypothesis =>
    cases escapes with
    | @short letter meant isShort =>
      refine .escape isDouble (.short isShort) (inductionHypothesis fun member => plain ?_)
      change backslash ∈ unescapeKey (backslash :: letter :: rest).dropLast
      rw [List.dropLast_cons_of_ne_nil (List.cons_ne_nil _ _),
        List.dropLast_cons_of_ne_nil more.ne_nil, unescapeKey_short isShort]
      exact List.mem_cons_of_mem _ member
    | @number letter digits _ isNumeric =>
      refine absurd ?_ plain
      change backslash ∈ unescapeKey (backslash :: letter :: (digits ++ rest)).dropLast
      rw [List.dropLast_cons_of_ne_nil (List.cons_ne_nil _ _),
        List.dropLast_cons_of_ne_nil (List.append_ne_nil_of_right_ne_nil _ more.ne_nil)]
      exact backslash_mem_unescapeKey_numeric isNumeric _
  | newline isMultiline => cases isMultiline
  | joined _ isMultiline => cases isMultiline

theorem of_single (body : Body dialect singleQuote false true rest name) :
    Body dialect singleQuote false false rest name := by
  induction body with
  | close => exact .close
  | unit allowed goesOn noEscape _ inductionHypothesis =>
    exact .unit allowed goesOn noEscape inductionHypothesis
  | escape isDouble => exact absurd isDouble (by decide)
  | newline isMultiline => cases isMultiline
  | joined isDouble => exact absurd isDouble (by decide)

end Body

namespace Written

theorem KeyPart.scanned_eq (part : KeyPart dialect) (plain : part.IsPlain) :
    part.scanned = part.name := by
  cases part with
  | bare => rfl
  | quoted quote rest name isQuoted =>
    obtain rfl | rfl := isQuoted
    · change (if doubleQuote = doubleQuote then unescapeKey rest.dropLast else rest.dropLast) = name
      rw [if_pos rfl]
      exact Body.unescapeKey_eq plain
    · change (if singleQuote = doubleQuote then unescapeKey rest.dropLast else rest.dropLast) = name
      rw [if_neg (by decide)]
      exact Body.dropLast_eq plain

theorem KeyPart.isPlain_of_scanned (part : KeyPart dialect) (noEscape : backslash ∉ part.scanned) :
    part.IsPlain := by
  cases part with
  | bare => trivial
  | quoted quote rest name isQuoted body =>
    obtain rfl | rfl := isQuoted
    · refine body.of_scanned_double ?_
      change backslash ∉ if doubleQuote = doubleQuote then unescapeKey rest.dropLast else rest.dropLast
        at noEscape
      rwa [if_pos rfl] at noEscape
    · exact body.of_single

/-- The scanner takes a key without the numbers of characters for what it stands for. -/
theorem Key.scanned_eq (key : Key dialect) (plain : key.IsPlain) : key.scanned = key.path := by
  induction key with
  | last part => exact congrArg (fun name => [name]) (part.scanned_eq plain)
  | dotted part before after others inductionHypothesis =>
    rw [scanned, path, part.scanned_eq plain.1, inductionHypothesis plain.2]

/-- What the scanner takes for a path without backslashes is that path. -/
theorem Key.path_eq_of_scanned (key : Key dialect) {path : List Text} (same : key.scanned = path)
    (noEscape : ∀ part ∈ path, backslash ∉ part) : key.path = path := by
  have plain : key.IsPlain := by
    subst same
    induction key with
    | last part => exact part.isPlain_of_scanned (noEscape _ List.mem_cons_self)
    | dotted part before after others inductionHypothesis =>
      exact ⟨part.isPlain_of_scanned (noEscape _ List.mem_cons_self),
        inductionHypothesis fun name member => noEscape name (List.mem_cons_of_mem _ member)⟩
  rw [← key.scanned_eq plain, same]

end Written

end SourceLint.Toml
