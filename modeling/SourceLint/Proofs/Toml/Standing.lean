/-
This file proves that the values of a written document stand where its locations say, and that the
parts of a document end with units that are no blanks. What is blank up to the end of a line therefore
begins behind the item of the line.
-/
import SourceLint.Proofs.Toml.Documents

namespace SourceLint.Toml

variable {dialect : Dialect} {quote unit : CodeUnit} {multiline numeric : Bool}
  {source text front back : Text} {position : Nat}

/-! ### The last units of sources -/

/-- A text ends with a unit that is no blank. -/
def EndsInked (text : Text) : Prop := ∃ front unit, text = front ++ [unit] ∧ unit.isBlank = false

theorem EndsInked.append (ends : EndsInked text) (front : Text) : EndsInked (front ++ text) := by
  obtain ⟨before, unit, rfl, inked⟩ := ends
  exact ⟨front ++ before, unit, (List.append_assoc _ _ _).symm, inked⟩

theorem endsInked_singleton (inked : unit.isBlank = false) : EndsInked [unit] :=
  ⟨[], unit, rfl, inked⟩

/-- What ends such a text and is all blank is nothing. -/
theorem EndsInked.eq_nil_of_blank (ends : EndsInked text) (same : text = front ++ back)
    (blank : ∀ unit ∈ back, unit.isBlank = true) : back = [] := by
  obtain ⟨before, unit, rfl, inked⟩ := ends
  obtain rfl | ⟨rest, last, rfl⟩ := List.eq_nil_or_concat' back
  · rfl
  · rw [← List.append_assoc] at same
    obtain ⟨-, isLast⟩ := List.append_inj' same rfl
    have isBlank := blank last (List.mem_append_right _ List.mem_cons_self)
    rw [← (List.cons.inj isLast).1, inked] at isBlank
    cases isBlank

theorem IsQuote.endsInked (isQuoted : IsQuote quote) (multiline : Bool) :
    EndsInked (quotes quote multiline) := by
  have inked : quote.isBlank = false := by obtain rfl | rfl := isQuoted <;> decide
  cases multiline with
  | false => exact endsInked_singleton inked
  | true => exact (endsInked_singleton inked).append [quote, quote]

theorem Body.endsInked (body : Body dialect quote multiline numeric source text)
    (isQuoted : IsQuote quote) : EndsInked source := by
  induction body with
  | close => exact isQuoted.endsInked multiline
  | @unit unit _ _ _ _ _ _ inductionHypothesis => exact inductionHypothesis.append [unit]
  | @escape escape _ _ _ _ _ _ inductionHypothesis =>
    exact (inductionHypothesis.append escape).append [backslash]
  | newline _ newline _ inductionHypothesis => exact inductionHypothesis.append newline.source
  | @joined spacing _ _ _ _ blanks newline _ _ _ _ inductionHypothesis =>
    exact (((inductionHypothesis.append spacing).append newline.source).append blanks.source).append
      [backslash]

theorem IsString.endsInked (isString : IsString dialect source text) : EndsInked source := by
  cases isString with
  | line isQuoted body => exact (body.endsInked isQuoted).append [_]
  | lines isQuoted _ body => exact (body.endsInked isQuoted).append _
  | brokenLines isQuoted newline body => exact (body.endsInked isQuoted).append _

namespace Written

mutual

theorem Value.endsInked (value : Value dialect) : EndsInked value.source := by
  cases value with
  | text source text isString =>
    rw [Value.source]
    exact isString.endsInked
  | scalar word value stands =>
    obtain ⟨front, unit, same, isScalar⟩ := (dialect.isWord_of_scalar? word value stands).last
    rw [Value.source]
    exact ⟨front, unit, same, not_isBlank_of_isScalarUnit isScalar⟩
  | array items =>
    rw [Value.source]
    exact items.endsInked.append [_]
  | inlineTable pairs =>
    rw [Value.source]
    exact pairs.endsInked.append [_]

theorem Items.endsInked (items : Items dialect) : EndsInked items.source := by
  cases items with
  | close gap =>
    rw [Items.source]
    exact (endsInked_singleton (by decide)).append _
  | item before value after more =>
    rw [Items.source]
    exact ((more.endsInked.append _).append _).append _

theorem MoreItems.endsInked (more : MoreItems dialect) : EndsInked more.source := by
  cases more with
  | close =>
    rw [MoreItems.source]
    exact endsInked_singleton (by decide)
  | comma items =>
    rw [MoreItems.source]
    exact items.endsInked.append [_]

theorem Pairs.endsInked (pairs : Pairs dialect) : EndsInked pairs.source := by
  cases pairs with
  | close blanks =>
    rw [Pairs.source]
    exact (endsInked_singleton (by decide)).append _
  | pair before pair after more =>
    rw [Pairs.source]
    exact ((more.endsInked.append _).append _).append _

theorem MorePairs.endsInked (more : MorePairs dialect) : EndsInked more.source := by
  cases more with
  | close =>
    rw [MorePairs.source]
    exact endsInked_singleton (by decide)
  | comma pairs =>
    rw [MorePairs.source]
    exact pairs.endsInked.append [_]

end

theorem Item.endsInked (item : Item dialect) : EndsInked item.source := by
  cases item with
  | header double before key after =>
    have bracket : EndsInked (brackets double (']' : CodeUnit)) := by
      cases double with
      | false => exact endsInked_singleton (by decide)
      | true => exact (endsInked_singleton (by decide)).append [(']' : CodeUnit)]
    exact (((bracket.append _).append _).append _).append _
  | pair own =>
    cases own with
    | mk key before after value =>
      rw [Item.source, Pair.source]
      exact (((value.endsInked.append _).append [_]).append _).append _

/-- Behind a line feed in a line there is something that is no blank: the line feed stands in the item
of the line. -/
theorem Line.not_blank_behind_lineFeed (line : Line dialect)
    (same : line.source = front ++ 0x0A :: back) :
    ¬∀ unit ∈ back, unit.isBlank = true := by
  intro blank
  obtain ⟨before, item, after, comment⟩ := line
  have noFeedBehind := Line.lineFeed_not_mem_behind ⟨before, item, after, comment⟩
  cases item with
  | none =>
    have member : 0x0A ∈ before.source ++ Line.behind ⟨before, none, after, comment⟩ := by
      rw [show before.source ++ Line.behind ⟨before, none, after, comment⟩ =
        front ++ 0x0A :: back from same]
      exact List.mem_append_right _ List.mem_cons_self
    exact (List.mem_append.mp member).elim before.lineFeed_not_mem noFeedBehind
  | some item =>
    -- the line feed and all behind it are blank, and the item ends with something else
    have whole : (before.source ++ item.source) ++ Line.behind ⟨before, some item, after, comment⟩ =
        front ++ 0x0A :: back := by
      rw [← same]
      simp only [Line.source, Line.behind, itemSource, List.append_assoc]
    obtain ⟨middle, rfl, isBack⟩ | ⟨middle, isBefore, isBehind⟩ :=
      List.append_eq_append_iff.mp whole
    · refine noFeedBehind ?_
      rw [isBack]
      exact List.mem_append_right _ List.mem_cons_self
    · have inked := item.endsInked.append before.source
      have noMiddle : middle = [] := inked.eq_nil_of_blank isBefore fun unit member => by
        have isFeed : unit ∈ 0x0A :: back := isBehind ▸ List.mem_append_left _ member
        rcases List.mem_cons.mp isFeed with rfl | isBack
        · decide
        · exact blank unit isBack
      refine noFeedBehind ?_
      rw [noMiddle, List.nil_append] at isBehind
      rw [← isBehind]
      exact List.mem_cons_self

/-! ### Values in their sources -/

/-- The value of a location stands in a text that begins at a position. -/
def Location.StandsIn (location : Location dialect) (position : Nat) (text : Text) : Prop :=
  ∃ front back, text = front ++ (location.value.source ++ back) ∧
    location.position = position + front.length

namespace Location.StandsIn

variable {location : Location dialect}

theorem behind (stands : location.StandsIn (position + front.length) text) :
    location.StandsIn position (front ++ text) := by
  obtain ⟨before, after, rfl, start⟩ := stands
  refine ⟨front ++ before, after, (List.append_assoc _ _ _).symm, ?_⟩
  rw [start, List.length_append, Nat.add_assoc]

theorem behind_unit {unit : CodeUnit} (stands : location.StandsIn (position + 1) text) :
    location.StandsIn position (unit :: text) := by
  have front : location.StandsIn (position + [unit].length) text := stands
  exact front.behind

theorem before (stands : location.StandsIn position text) (back : Text) :
    location.StandsIn position (text ++ back) := by
  obtain ⟨before, after, rfl, start⟩ := stands
  exact ⟨before, after ++ back, by simp only [List.append_assoc], start⟩

/-- The place of such a value is placed in the text, and the text has its source there. -/
theorem placed (stands : location.StandsIn 0 text) :
    location.span.PlacedIn text ∧
      text.slice location.span.start location.span.stop = location.value.source := by
  obtain ⟨before, after, rfl, start⟩ := stands
  obtain ⟨unit, rest, begins, inked⟩ := location.value.exists_head
  rw [Nat.zero_add] at start
  refine ⟨⟨Nat.le_add_right _ _, ?_, ?_⟩, ?_⟩
  · simp only [Location.span, start, List.length_append]
    omega
  · refine Text.not_splitsBreak_of_ne _ _ ?_
    rw [Location.span, start, List.getElem?_append_right (Nat.le_refl _), Nat.sub_self, begins]
    rintro ⟨⟩
    exact absurd inked.notLayout (by decide)
  · simp only [Location.span, start, Text.slice, Nat.add_sub_cancel_left, List.drop_left,
      List.take_left]

end Location.StandsIn

section

variable (read : Key dialect → List Text)

mutual

theorem Value.standsIn (value : Value dialect) (position : Nat) :
    ∀ location ∈ value.locations read position, location.StandsIn position value.source := by
  cases value with
  | inlineTable pairs =>
    rw [Value.locations, Value.source]
    exact fun location member =>
      (pairs.standsIn (position + 1) location member).behind_unit
  | text | scalar | array =>
    rw [Value.locations]
    exact nofun

theorem Pairs.standsIn (pairs : Pairs dialect) (position : Nat) :
    ∀ location ∈ pairs.locations read position, location.StandsIn position pairs.source := by
  cases pairs with
  | close =>
    rw [Pairs.locations]
    exact nofun
  | pair before pair after more =>
    rw [Pairs.locations, Pairs.source]
    refine List.forall_mem_append.mpr ⟨fun location member => ?_, fun location member => ?_⟩
    · exact ((pair.standsIn _ location member).before _).behind
    · exact (more.standsIn _ location member).behind.behind.behind

theorem MorePairs.standsIn (more : MorePairs dialect) (position : Nat) :
    ∀ location ∈ more.locations read position, location.StandsIn position more.source := by
  cases more with
  | close =>
    rw [MorePairs.locations]
    exact nofun
  | comma pairs =>
    rw [MorePairs.locations, MorePairs.source]
    exact fun location member =>
      (pairs.standsIn (position + 1) location member).behind_unit

theorem Pair.standsIn (pair : Pair dialect) (position : Nat) :
    ∀ location ∈ pair.locations read position, location.StandsIn position pair.source := by
  cases pair with
  | mk key before after value =>
    have toValue {location : Location dialect}
        (stands : location.StandsIn (position + key.source.length + before.source.length + 1 +
          after.source.length) value.source) :
        location.StandsIn position (Pair.mk key before after value).source := by
      rw [Pair.source]
      exact stands.behind.behind_unit.behind.behind
    rw [Pair.locations]
    refine List.forall_mem_cons.mpr ⟨toValue ⟨[], [], ?_, rfl⟩, fun location member => ?_⟩
    · rw [List.nil_append, List.append_nil]
    · obtain ⟨inner, isInner, rfl⟩ := List.mem_map.mp member
      exact toValue (value.standsIn _ inner isInner)

end

theorem Line.standsIn (line : Line dialect) (table : List Text) (position : Nat) :
    ∀ location ∈ line.locations read table position, location.StandsIn position line.source := by
  obtain ⟨before, item, after, comment⟩ := line
  match item with
  | none => exact nofun
  | some (.header _ _ _ _) => exact nofun
  | some (.pair own) =>
    rintro _ member
    obtain ⟨location, isLocation, rfl⟩ := List.mem_map.mp member
    exact ((own.standsIn read _ location isLocation).before _).behind

/-- The values of a document stand where its locations say. -/
theorem Document.standsIn (document : Document dialect) (table : List Text) (position : Nat) :
    ∀ location ∈ document.locations read table position,
      location.StandsIn position document.source := by
  induction document generalizing table position with
  | last line => exact line.standsIn read table position
  | more line newline others inductionHypothesis =>
    refine List.forall_mem_append.mpr ⟨fun location member => ?_, fun location member => ?_⟩
    · exact (line.standsIn read table position location member).before _
    · exact (inductionHypothesis _ _ location member).behind.behind

end

end Written

end SourceLint.Toml
