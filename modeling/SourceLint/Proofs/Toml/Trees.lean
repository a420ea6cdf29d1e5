/-
This file proves that the layout scanner takes a value as it is written: it comes to the end of the
value, and finds in it the places that its keys give. A word is the one kind of value behind which
the scanner goes on, over blanks; nothing that follows a value tells where it stopped. The trees of
values are run over by a mutual induction, with one lemma for each kind of tree.
-/
import SourceLint.Proofs.Toml.Keys

namespace SourceLint.Toml

open Cursor (isLayoutUnit triviaLength)

variable {dialect : Dialect} {unit : CodeUnit} {rest after : Text} {position : Nat}

/-! ### What follows a value -/

/-- A unit that the scanner takes with a word without counting it. -/
def isPadding (unit : CodeUnit) : Bool := unit.isSpaceOrTab || unit == 0x0D

/-- A value may stand before a text: behind blanks it begins with a comment, a comma, a closing bracket
or a line ending, or it is at its end. -/
def Closes (text : Text) : Prop :=
  ∀ unit ∈ (text.dropWhile isPadding).head?, endsBareValue unit = true

theorem not_endsBareValue_of_isPadding (padding : isPadding unit = true) :
    endsBareValue unit = false := by
  simp only [isPadding, CodeUnit.isSpaceOrTab, Bool.or_eq_true, beq_iff_eq] at padding
  rcases padding with (rfl | rfl) | rfl <;> rfl

theorem isBlank_of_isPadding (padding : isPadding unit = true) : unit.isBlank = true := by
  simp only [isPadding, CodeUnit.isSpaceOrTab, Bool.or_eq_true, beq_iff_eq] at padding
  rcases padding with (rfl | rfl) | rfl <;> decide

theorem isLayoutUnit_of_isPadding (padding : isPadding unit = true) :
    isLayoutUnit unit = true := by
  rw [isLayoutUnit]
  exact Bool.or_eq_true_iff.mpr (Or.inl padding)

theorem closes_nil : Closes [] := nofun

theorem closes_cons (ends : endsBareValue unit = true) (rest : Text) : Closes (unit :: rest) := by
  have notPadding : ¬isPadding unit = true := fun padding =>
    absurd ((not_endsBareValue_of_isPadding padding).symm.trans ends) (by decide)
  rw [Closes, List.dropWhile_cons_of_neg notPadding]
  rintro _ ⟨⟩
  exact ends

theorem closes_of_isPadding (padding : isPadding unit = true) (closes : Closes rest) :
    Closes (unit :: rest) := by
  rwa [Closes, List.dropWhile_cons_of_pos padding]

theorem closes_append {padding : Text} (arePadding : ∀ unit ∈ padding, isPadding unit = true)
    (closes : Closes rest) : Closes (padding ++ rest) := by
  rwa [Closes, List.dropWhile_append_of_pos arePadding]

theorem closes_blanks (blanks : Blanks) (closes : Closes rest) : Closes (blanks.source ++ rest) :=
  closes_append (fun unit member => Bool.or_eq_true_iff.mpr (Or.inl (blanks.areBlank unit member)))
    closes

theorem closes_newline (newline : Newline) (rest : Text) : Closes (newline.source ++ rest) := by
  cases newline with
  | lineFeed => exact closes_cons (by decide) rest
  | pair => exact closes_of_isPadding (by decide) (closes_cons (by decide) rest)

theorem closes_commentSource (comment : Option (Comment dialect)) (closes : Closes rest) :
    Closes (commentSource comment ++ rest) := by
  cases comment with
  | none => exact closes
  | some comment => exact closes_cons (by decide) _

theorem closes_gap (gap : Gap dialect) (closes : Closes rest) : Closes (gap.source ++ rest) := by
  induction gap with
  | none => exact closes
  | blank unit isBlank gap inductionHypothesis =>
    exact closes_of_isPadding (Bool.or_eq_true_iff.mpr (Or.inl isBlank)) inductionHypothesis
  | newline comment ending gap =>
    rw [Gap.source, List.append_assoc, List.append_assoc]
    exact closes_commentSource comment (closes_newline ending _)

theorem Closes.unquoted (closes : Closes rest) : ∀ unit ∈ rest.head?, isQuote unit = false := by
  intro unit first
  obtain ⟨others, rfl⟩ := List.head?_eq_some_iff.mp first
  refine Bool.or_eq_false_iff.mpr ⟨beq_false_of_ne ?_, beq_false_of_ne ?_⟩ <;>
    rintro rfl <;> exact absurd (closes _ rfl) (by decide)

/-- The scanner goes over the blanks after a word up to the unit that ends it. -/
theorem Closes.takeWhile_eq (closes : Closes rest) :
    rest.takeWhile (fun unit => !endsBareValue unit) = rest.takeWhile isPadding := by
  have passes : ∀ unit ∈ rest.takeWhile isPadding, (!endsBareValue unit) = true :=
    fun unit member => by
      rw [not_endsBareValue_of_isPadding (List.mem_takeWhile_imp member), Bool.not_false]
  have stops : (rest.dropWhile isPadding).takeWhile (fun unit => !endsBareValue unit) = [] := by
    rw [Closes] at closes
    cases left : rest.dropWhile isPadding with
    | nil => rfl
    | cons unit others =>
      rw [left] at closes
      exact List.takeWhile_cons_of_neg (by simp [closes unit rfl])
  calc
    rest.takeWhile (fun unit => !endsBareValue unit)
      = (rest.takeWhile isPadding ++ rest.dropWhile isPadding).takeWhile
          (fun unit => !endsBareValue unit) := by rw [List.takeWhile_append_dropWhile]
    _ = rest.takeWhile isPadding := by
      rw [List.takeWhile_append_of_pos passes, stops, List.append_nil]

/-- A cursor is at another, or behind the blanks there. -/
def Cursor.Near (cursor next : Cursor) : Prop :=
  next = cursor ∨ next = cursor.skipWhile isPadding

namespace Cursor.Near

variable {cursor next : Cursor} (near : cursor.Near next)

include near

theorem skipLine : next.skipLine = cursor.skipLine := by
  obtain rfl | rfl := near
  · rfl
  · refine skipWhile_skipWhile (fun unit padding => bne_iff_ne.mpr ?_) cursor
    rintro rfl
    exact absurd padding (by decide)

theorem skipTrivia : next.skipTrivia = cursor.skipTrivia := by
  obtain rfl | rfl := near
  · rfl
  · obtain ⟨position, text⟩ := cursor
    have passes : ∀ unit ∈ text.takeWhile isPadding, isLayoutUnit unit = true := fun unit member =>
      isLayoutUnit_of_isPadding (List.mem_takeWhile_imp member)
    have split : (Cursor.mk position (text.takeWhile isPadding ++ text.dropWhile isPadding)).skipTrivia =
        _ := skipTrivia_append (triviaLength_append passes (text.dropWhile isPadding))
    rw [List.takeWhile_append_dropWhile] at split
    rw [split]
    exact congrArg Cursor.skipTrivia (congrArg (Cursor.mk _) (text.drop_length_takeWhile isPadding))

end Cursor.Near

/-- Before what is no blank and no part of a line ending, blanks take all cursors to one place. -/
theorem Cursor.Near.skipSpace {next : Cursor} {blanks : Blanks} (rest : Text)
    (near : (Cursor.mk position (blanks.source ++ rest)).Near next)
    (stops : ∀ unit ∈ rest.head?, isPadding unit = false) :
    next.skipSpace = ⟨position + blanks.source.length, rest⟩ := by
  have notBlank : ∀ unit ∈ rest.head?, unit.isSpaceOrTab = false := fun unit first =>
    (Bool.or_eq_false_iff.mp (stops unit first)).1
  obtain rfl | rfl := near
  · exact skipSpace_blanks_eq blanks position rest notBlank
  · have skipped : (Cursor.mk position (blanks.source ++ rest)).skipWhile isPadding =
        ⟨position + blanks.source.length, rest⟩ :=
      (skipWhile_append fun unit member =>
        Bool.or_eq_true_iff.mpr (Or.inl (blanks.areBlank unit member))).trans
        (skipWhile_eq_self stops)
    rw [skipped]
    exact skipWhile_eq_self notBlank

/-! ### Words -/

/-- What a unit of a word is not. -/
theorem isScalarUnit_ne {other : CodeUnit} (isScalar : isScalarUnit unit = true)
    (notScalar : isScalarUnit other = false) : unit ≠ other := by
  rintro rfl
  exact absurd (notScalar.symm.trans isScalar) (by decide)

theorem not_endsBareValue_of_isScalarUnit (isScalar : isScalarUnit unit = true) :
    endsBareValue unit = false := by
  have unlike {other : CodeUnit} : isScalarUnit other = false → unit ≠ other :=
    isScalarUnit_ne isScalar
  simp only [endsBareValue, Bool.or_eq_false_iff, beq_eq_false_iff_ne]
  exact ⟨⟨⟨⟨unlike (by decide), unlike (by decide)⟩, unlike (by decide)⟩, unlike (by decide)⟩,
    unlike (by decide)⟩

theorem not_isBlank_of_isScalarUnit (isScalar : isScalarUnit unit = true) :
    unit.isBlank = false := by
  simp only [isScalarUnit, CodeUnit.isWordUnit, Bool.or_eq_true, beq_iff_eq] at isScalar
  rcases isScalar with ((((isWord | rfl) | rfl) | rfl) | rfl) | rfl
  · exact CodeUnit.not_isBlank_of_isAlphanumeric isWord
  all_goals decide

namespace IsWord

variable {word : Text} (isWord : IsWord word)

include isWord

theorem goesOn : ∀ unit ∈ word, endsBareValue unit = false := by
  intro unit member
  rcases isWord.units unit member with isScalar | rfl
  · exact not_endsBareValue_of_isScalarUnit isScalar
  · decide

/-- The scanner takes a word without the blanks behind it, and goes on behind those. -/
theorem readBareValue_eq (position : Nat) (closes : Closes after) :
    (Cursor.mk position (word ++ after)).readBareValue =
      (⟨position, position + word.length⟩,
        (Cursor.mk (position + word.length) after).skipWhile isPadding) := by
  have taken : (word ++ after).takeWhile (fun unit => !endsBareValue unit) =
      word ++ after.takeWhile isPadding := by
    rw [List.takeWhile_append_of_pos (by simpa using isWord.goesOn), closes.takeWhile_eq]
  have trimmed : Text.trimEnd (word ++ after.takeWhile isPadding) = word := by
    rw [Text.trimEnd_append_blanks _ _ fun unit member =>
      isBlank_of_isPadding (List.mem_takeWhile_imp member)]
    refine Text.trimEnd_eq_self word fun unit isLast => ?_
    obtain ⟨front, last, rfl, isScalar⟩ := isWord.last
    rw [List.getLast?_concat] at isLast
    cases isLast
    exact not_isBlank_of_isScalarUnit isScalar
  rw [Cursor.readBareValue]
  dsimp only
  rw [taken, trimmed]
  refine Prod.ext rfl ?_
  simp only [Cursor.skipWhile, Cursor.advance, List.length_append, Nat.add_assoc,
    ← List.drop_drop, List.drop_left]

end IsWord

/-! ### Values -/

/-- A unit that a value may begin with. -/
structure BeginsValue (unit : CodeUnit) : Prop where
  notLayout : isLayoutUnit unit = false
  goesOn : endsBareValue unit = false

theorem beginsValue_of_isScalarUnit (isScalar : isScalarUnit unit = true) : BeginsValue unit := by
  have unlike {other : CodeUnit} : isScalarUnit other = false → unit ≠ other :=
    isScalarUnit_ne isScalar
  refine ⟨?_, not_endsBareValue_of_isScalarUnit isScalar⟩
  simp only [isLayoutUnit, CodeUnit.isSpaceOrTab, Bool.or_eq_false_iff, beq_eq_false_iff_ne]
  exact ⟨⟨⟨unlike (by decide), unlike (by decide)⟩, unlike (by decide)⟩, unlike (by decide)⟩

theorem IsString.exists_head {source text : Text} (isString : IsString dialect source text) :
    ∃ quote rest, source = quote :: rest ∧ IsQuote quote := by
  cases isString with
  | line isQuoted | lines isQuoted | brokenLines isQuoted => exact ⟨_, _, rfl, isQuoted⟩

theorem Written.Value.exists_head (value : Written.Value dialect) :
    ∃ unit rest, value.source = unit :: rest ∧ BeginsValue unit := by
  cases value with
  | text source _ isString =>
    obtain ⟨quote, rest, same, isQuoted⟩ := isString.exists_head
    refine ⟨quote, rest, by rw [Written.Value.source, same], ?_⟩
    obtain rfl | rfl := isQuoted <;> exact ⟨by decide, by decide⟩
  | scalar word value stands =>
    obtain ⟨unit, rest, same, isScalar⟩ := (dialect.isWord_of_scalar? word value stands).first
    exact ⟨unit, rest, by rw [Written.Value.source, same], beginsValue_of_isScalarUnit isScalar⟩
  | array items => exact ⟨_, _, by rw [Written.Value.source], ⟨by decide, by decide⟩⟩
  | inlineTable pairs => exact ⟨_, _, by rw [Written.Value.source], ⟨by decide, by decide⟩⟩

/-- A unit before which the scanner passes over no trivia. -/
def EndsTrivia (unit : CodeUnit) : Prop := isLayoutUnit unit = false ∧ unit ≠ '#'

theorem not_isSpaceOrTab_of_endsTrivia (ends : EndsTrivia unit) : unit.isSpaceOrTab = false :=
  (Bool.or_eq_false_iff.mp (Bool.or_eq_false_iff.mp ends.1).1).1

theorem BeginsValue.endsTrivia (begins : BeginsValue unit) : EndsTrivia unit :=
  ⟨begins.notLayout, fun isComment => absurd (isComment ▸ begins.goesOn) (by decide)⟩

theorem BeginsKey.endsTrivia (begins : BeginsKey unit) : EndsTrivia unit := by
  have unlike {other : CodeUnit} : isBareKeyUnit other = false → ¬IsQuote other → unit ≠ other :=
    begins.ne
  refine ⟨?_, unlike (by decide) (by decide)⟩
  simp only [isLayoutUnit, Bool.or_eq_false_iff, beq_eq_false_iff_ne]
  exact ⟨⟨begins.notBlank, unlike (by decide) (by decide)⟩, unlike (by decide) (by decide)⟩

/-- A gap is passed over up to what follows it. -/
theorem skipTrivia_gap (gap : Gap dialect) (position : Nat) (rest : Text)
    (stops : ∀ unit ∈ rest.head?, EndsTrivia unit) :
    (Cursor.mk position (gap.source ++ rest)).skipTrivia =
      ⟨position + gap.source.length, rest⟩ :=
  (Cursor.skipTrivia_append (gap.triviaLength_append rest)).trans (Cursor.skipTrivia_eq_self stops)

namespace Written

theorem Value.endsTrivia (value : Value dialect) (rest : Text) :
    ∀ unit ∈ (value.source ++ rest).head?, EndsTrivia unit := by
  obtain ⟨unit, others, same, begins⟩ := value.exists_head
  rw [same]
  rintro _ ⟨⟩
  exact begins.endsTrivia

theorem Value.length_source_pos (value : Value dialect) : 0 < value.source.length := by
  obtain ⟨unit, others, same, -⟩ := value.exists_head
  rw [same]
  exact Nat.succ_pos _

theorem MoreItems.exists_head (more : MoreItems dialect) :
    ∃ unit others, more.source = unit :: others ∧ EndsTrivia unit ∧ endsBareValue unit = true := by
  cases more with
  | close => exact ⟨_, _, by rw [MoreItems.source], ⟨by decide, by decide⟩, by decide⟩
  | comma => exact ⟨_, _, by rw [MoreItems.source], ⟨by decide, by decide⟩, by decide⟩

theorem MorePairs.exists_head (more : MorePairs dialect) :
    ∃ unit others, more.source = unit :: others ∧ isPadding unit = false ∧
      endsBareValue unit = true := by
  cases more with
  | close => exact ⟨_, _, by rw [MorePairs.source], by decide, by decide⟩
  | comma => exact ⟨_, _, by rw [MorePairs.source], by decide, by decide⟩

theorem Value.goesOn (value : Value dialect) {bracket : CodeUnit}
    (ends : endsBareValue bracket = true) (position : Nat) (rest : Text) :
    ¬((Cursor.mk position (value.source ++ rest)).rest = [] ∨
      (Cursor.mk position (value.source ++ rest)).isAt bracket = true) := by
  obtain ⟨unit, others, same, begins⟩ := value.exists_head
  rw [same, Cursor.isAt_cons _ rfl]
  rintro (isNil | isBracket)
  · cases isNil
  · exact absurd ((eq_of_beq isBracket ▸ begins.goesOn).symm.trans ends) (by decide)

theorem Key.length_source_pos (key : Key dialect) : 0 < key.source.length := by
  obtain ⟨unit, others, same, -⟩ := key.exists_head
  rw [same]
  exact Nat.succ_pos _

theorem Pair.exists_head (pair : Pair dialect) :
    ∃ unit others, pair.source = unit :: others ∧ BeginsKey unit := by
  cases pair with
  | mk key before after value =>
    obtain ⟨unit, others, same, begins⟩ := key.exists_head
    exact ⟨unit, _, by rw [Pair.source, same]; rfl, begins⟩

theorem Pair.length_source_pos (pair : Pair dialect) : 0 < pair.source.length := by
  obtain ⟨unit, others, same, -⟩ := pair.exists_head
  rw [same]
  exact Nat.succ_pos _

theorem Pair.goesOn (pair : Pair dialect) (position : Nat) (rest : Text) :
    ¬((Cursor.mk position (pair.source ++ rest)).rest = [] ∨
      (Cursor.mk position (pair.source ++ rest)).isAt '\x7d' = true) := by
  obtain ⟨unit, others, same, begins⟩ := pair.exists_head
  rw [same, Cursor.isAt_cons _ rfl]
  rintro (isNil | isBrace)
  · cases isNil
  · exact begins.ne (by decide) (by decide) (eq_of_beq isBrace)

/-- Blanks before a pair are skipped up to it. -/
theorem skipSpace_pair (blanks : Blanks) (pair : Pair dialect) (position : Nat) (rest : Text) :
    (Cursor.mk position (blanks.source ++ (pair.source ++ rest))).skipSpace =
      ⟨position + blanks.source.length, pair.source ++ rest⟩ := by
  obtain ⟨unit, others, same, begins⟩ := pair.exists_head
  refine skipSpace_blanks_eq blanks position _ fun first isFirst => ?_
  rw [same] at isFirst
  cases isFirst
  exact begins.notBlank

mutual

/-- The scanner takes a value as it is written. -/
theorem Value.run (value : Value dialect) (position : Nat) (after : Text) (closes : Closes after) :
    ∃ entries next, Run .value ⟨position, value.source ++ after⟩
        (⟨position, position + value.source.length⟩, entries, next) ∧
      (Cursor.mk (position + value.source.length) after).Near next ∧
      allPlaces entries = (value.locations Key.scanned position).map Location.place := by
  cases value with
  | text source text isString =>
    obtain ⟨quote, others, same, quoted, length⟩ := isString.stringLength_eq closes.unquoted
    have here : (Cursor.mk position (source ++ after)).rest = quote :: (others ++ after) := by
      rw [same]
      rfl
    have run := Run.quoted here quoted
    dsimp only at run
    rw [length, Cursor.advance_append] at run
    rw [Value.source, Value.locations]
    exact ⟨[], _, run, Or.inl rfl, by rw [allPlaces]; rfl⟩
  | scalar word value stands =>
    have isWord := dialect.isWord_of_scalar? word value stands
    obtain ⟨unit, others, same, isScalar⟩ := isWord.first
    have unlike {other : CodeUnit} : isScalarUnit other = false → unit ≠ other :=
    isScalarUnit_ne isScalar
    have here : (Cursor.mk position (word ++ after)).rest = unit :: (others ++ after) := by
      rw [same]
      rfl
    have unquoted : isQuote unit = false := Bool.or_eq_false_iff.mpr
      ⟨beq_false_of_ne (unlike (by decide)), beq_false_of_ne (unlike (by decide))⟩
    have run := Run.bare here unquoted (unlike (by decide)) (unlike (by decide))
    rw [isWord.readBareValue_eq position closes] at run
    rw [Value.source, Value.locations]
    exact ⟨[], _, run, Or.inr rfl, by rw [allPlaces]; rfl⟩
  | array items =>
    have inner := items.run position (position + 1) (Nat.lt_succ_self _) after
    have here : (Cursor.mk position (('[' : CodeUnit) :: (items.source ++ after))).rest =
        ('[' : CodeUnit) :: (items.source ++ after) := rfl
    have run := Run.brackets here inner
    rw [Nat.add_assoc, Nat.add_comm 1] at run
    rw [Value.source, Value.locations]
    exact ⟨[], _, run, Or.inl rfl, by rw [allPlaces]; rfl⟩
  | inlineTable pairs =>
    obtain ⟨entries, inner, same⟩ := pairs.run position (position + 1) (Nat.lt_succ_self _) after
    have here : (Cursor.mk position (('\x7b' : CodeUnit) :: (pairs.source ++ after))).rest =
        ('\x7b' : CodeUnit) :: (pairs.source ++ after) := rfl
    have run := Run.braces here inner
    rw [Nat.add_assoc, Nat.add_comm 1] at run
    rw [Value.source, Value.locations]
    exact ⟨entries, _, run, Or.inl rfl, same⟩

/-- The scanner takes the items of an array up to the bracket that closes it. -/
theorem Items.run (items : Items dialect) (opening position : Nat) (behind : opening < position)
    (after : Text) :
    Run (.items opening) ⟨position, items.source ++ after⟩
      ⟨position + items.source.length, after⟩ := by
  cases items with
  | close gap =>
    have atBracket := skipTrivia_gap gap position ((']' : CodeUnit) :: after) (by
      rintro _ ⟨⟩
      exact ⟨by decide, by decide⟩)
    rw [Items.source, List.append_assoc, List.length_append, ← Nat.add_assoc]
    have run : Run (.items opening) _ _ := .itemsDone (Or.inr (by
      rw [atBracket, Cursor.isAt_cons _ rfl, beq_self_eq_true]))
    rw [atBracket] at run
    exact run
  | item before value gap more =>
    obtain ⟨unit, others, same, stops, ends⟩ := more.exists_head
    have further := more.run opening
      (position + before.source.length + value.source.length + gap.source.length) (by omega) after
    obtain ⟨entries, next, reads, near, -⟩ := value.run (position + before.source.length)
      (gap.source ++ (more.source ++ after))
      (closes_gap gap (same ▸ closes_cons ends (others ++ after)))
    have atValue := skipTrivia_gap before position _
      (value.endsTrivia (gap.source ++ (more.source ++ after)))
    have behindValue := near.skipTrivia.trans (skipTrivia_gap gap _ (more.source ++ after)
      (by rw [same]; rintro _ ⟨⟩; exact stops))
    have longer := value.length_source_pos
    simp only [Items.source, List.append_assoc, List.length_append, ← Nat.add_assoc]
    refine .itemsTurn ?_ (atValue ▸ reads) (by dsimp only; omega) (Or.inr ?_) ?_
      (behindValue ▸ further)
    · rw [atValue]
      exact value.goesOn (by decide) _ _
    · rw [behindValue, atValue]
      dsimp only
      omega
    · rw [behindValue]
      have onward := Cursor.le_past ',' ⟨position + before.source.length + value.source.length +
        gap.source.length, more.source ++ after⟩
      dsimp only at onward ⊢
      omega

/-- So it takes the items behind another. -/
theorem MoreItems.run (more : MoreItems dialect) (opening position : Nat)
    (behind : opening < position) (after : Text) :
    Run (.items opening) ((Cursor.mk position (more.source ++ after)).past ',')
      ⟨position + more.source.length, after⟩ := by
  cases more with
  | close =>
    have atBracket : (Cursor.mk position ((']' : CodeUnit) :: after)).skipTrivia =
        ⟨position, (']' : CodeUnit) :: after⟩ :=
      Cursor.skipTrivia_eq_self (by rintro _ ⟨⟩; exact ⟨by decide, by decide⟩)
    have run : Run (.items opening) _ _ := .itemsDone (Or.inr (by
      rw [atBracket, Cursor.isAt_cons _ rfl, beq_self_eq_true]))
    rw [atBracket] at run
    rw [MoreItems.source, List.singleton_append, Cursor.past_eq_self rfl (by decide)]
    exact run
  | comma items =>
    have inner := items.run opening (position + 1) (by omega) after
    rw [MoreItems.source, List.cons_append, Cursor.past_cons, List.length_cons,
      Nat.add_comm items.source.length, ← Nat.add_assoc]
    exact inner

/-- The scanner takes the pairs of an inline table up to the brace that closes it. -/
theorem Pairs.run (pairs : Pairs dialect) (opening position : Nat) (behind : opening < position)
    (after : Text) :
    ∃ entries, Run (.entries opening) ⟨position, pairs.source ++ after⟩
        (entries, ⟨position + pairs.source.length, after⟩) ∧
      allPlaces entries = (pairs.locations Key.scanned position).map Location.place := by
  cases pairs with
  | close blanks =>
    have atBrace := skipSpace_blanks_eq blanks position (('\x7d' : CodeUnit) :: after) (by
      rintro _ ⟨⟩
      decide)
    rw [Pairs.source, List.append_assoc, List.length_append, ← Nat.add_assoc]
    have run : Run (.entries opening) _ _ := .entriesDone (Or.inr (by
      rw [atBrace, Cursor.isAt_cons _ rfl, beq_self_eq_true]))
    rw [atBrace] at run
    exact ⟨[], run, by rw [Pairs.locations, allPlaces]; rfl⟩
  | pair before pair blanks more =>
    obtain ⟨entries, others, same⟩ := more.run opening
      (position + before.source.length + pair.source.length + blanks.source.length) (by omega) after
    obtain ⟨unit, rest, begins, stops, ends⟩ := more.exists_head
    obtain ⟨entry, next, reads, near, places, further⟩ := pair.run (position + before.source.length)
      (blanks.source ++ (more.source ++ after))
      (closes_blanks blanks (begins ▸ closes_cons ends (rest ++ after)))
    have atPair := skipSpace_pair before pair position (blanks.source ++ (more.source ++ after))
    have behindPair := near.skipSpace (more.source ++ after)
      (by rw [begins]; rintro _ ⟨⟩; exact stops)
    have longer := pair.length_source_pos
    simp only [Pairs.source, List.append_assoc, List.length_append, ← Nat.add_assoc]
    refine ⟨entry :: entries, .entriesTurn ?_ (atPair ▸ reads) (by omega) (Or.inr ?_) ?_
      (behindPair ▸ others), ?_⟩
    · rw [atPair]
      exact pair.goesOn _ _
    · rw [behindPair, atPair]
      dsimp only
      omega
    · rw [behindPair]
      have onward := Cursor.le_past ',' ⟨position + before.source.length + pair.source.length +
        blanks.source.length, more.source ++ after⟩
      dsimp only at onward ⊢
      omega
    · rw [allPlaces, Pairs.locations, List.map_append, places, same]

/-- So it takes the pairs behind another. -/
theorem MorePairs.run (more : MorePairs dialect) (opening position : Nat)
    (behind : opening < position) (after : Text) :
    ∃ entries, Run (.entries opening) ((Cursor.mk position (more.source ++ after)).past ',')
        (entries, ⟨position + more.source.length, after⟩) ∧
      allPlaces entries = (more.locations Key.scanned position).map Location.place := by
  cases more with
  | close =>
    have atBrace : (Cursor.mk position (('\x7d' : CodeUnit) :: after)).skipSpace =
        ⟨position, ('\x7d' : CodeUnit) :: after⟩ :=
      Cursor.skipWhile_eq_self (by rintro _ ⟨⟩; decide)
    have run : Run (.entries opening) _ _ := .entriesDone (Or.inr (by
      rw [atBrace, Cursor.isAt_cons _ rfl, beq_self_eq_true]))
    rw [atBrace] at run
    rw [MorePairs.source, List.singleton_append, Cursor.past_eq_self rfl (by decide)]
    exact ⟨[], run, by rw [MorePairs.locations, allPlaces]; rfl⟩
  | comma pairs =>
    obtain ⟨entries, inner, same⟩ := pairs.run opening (position + 1) (by omega) after
    rw [MorePairs.source, List.cons_append, Cursor.past_cons, List.length_cons,
      Nat.add_comm pairs.source.length, ← Nat.add_assoc, MorePairs.locations]
    exact ⟨entries, inner, same⟩

/-- The scanner takes a pair as it is written; its value begins behind its key. -/
theorem Pair.run (pair : Pair dialect) (position : Nat) (after : Text) (closes : Closes after) :
    ∃ entry next, Run .entry ⟨position, pair.source ++ after⟩ (entry, next) ∧
      (Cursor.mk (position + pair.source.length) after).Near next ∧
      entry.places = (pair.locations Key.scanned position).map Location.place ∧
      position < entry.valueSpan.start := by
  cases pair with
  | mk key before blanks value =>
    obtain ⟨entries, next, reads, near, same⟩ := value.run
      (position + key.source.length + before.source.length + 1 + blanks.source.length) after closes
    have readKey := keyRun_key key before position (('=' : CodeUnit) ::
      (blanks.source ++ (value.source ++ after))) (by rintro _ ⟨⟩; exact ⟨⟨by decide, by decide⟩,
        by decide, by decide⟩)
    have atSign : (Cursor.mk (position + key.source.length + before.source.length)
        (('=' : CodeUnit) :: (blanks.source ++ (value.source ++ after)))).skipSpace =
        ⟨_, ('=' : CodeUnit) :: (blanks.source ++ (value.source ++ after))⟩ :=
      Cursor.skipWhile_eq_self (by rintro _ ⟨⟩; decide)
    have atValue := skipSpace_blanks_eq blanks
      (position + key.source.length + before.source.length + 1) (value.source ++ after)
      (fun unit first => not_isSpaceOrTab_of_endsTrivia (value.endsTrivia after unit first))
    have run := Run.entry readKey (by
      rw [atSign, Cursor.past_cons, atValue]
      exact reads)
    have whole : position + (Pair.mk key before blanks value).source.length =
        position + key.source.length + before.source.length + 1 + blanks.source.length +
          value.source.length := by
      simp only [Pair.source, List.length_append, List.length_cons]
      omega
    have longer := key.length_source_pos
    rw [whole]
    simp only [Pair.source, List.append_assoc, List.cons_append]
    refine ⟨_, next, run, near, ?_, by dsimp only [LayoutEntry.valueSpan]; omega⟩
    rw [LayoutEntry.places, Pair.locations, same, List.map_cons, List.map_map, List.map_map]
    rfl

end

end Written

end SourceLint.Toml
