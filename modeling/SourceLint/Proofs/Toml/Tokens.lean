/-
This file proves that the layout scanner takes strings, keys, words and the gaps between them as they
are written. It looks at little of a string: a backslash counts for two units, and only what closes
the string is looked for behind it. So the lemmas go over the body of a string piece by piece, with
the rest of the text in place, because the scanner does not know where a piece ends.
-/
import SourceLint.Proofs.Toml.Cursor
import SourceLint.Proofs.Toml.Grammar

namespace SourceLint.Toml

open Cursor (isLayoutUnit triviaLength)

variable {dialect : Dialect} {quote unit : CodeUnit} {multiline numeric : Bool}
  {source text rest after taken : Text} {position : Nat}

/-! ### Blanks, line endings and comments -/

theorem isLayoutUnit_of_isSpaceOrTab (isBlank : unit.isSpaceOrTab = true) :
    isLayoutUnit unit = true := by
  rw [isLayoutUnit, isBlank]
  rfl

theorem Newline.areLayoutUnits (newline : Newline) :
    ∀ unit ∈ newline.source, isLayoutUnit unit = true := by
  cases newline <;> decide

/-- A line ending has one line feed, at its end. -/
theorem Newline.exists_front (newline : Newline) :
    ∃ front, newline.source = front ++ [0x0A] ∧ 0x0A ∉ front := by
  cases newline
  · exact ⟨[], rfl, List.not_mem_nil⟩
  · exact ⟨[0x0D], rfl, by decide⟩

theorem Blanks.lineFeed_not_mem (blanks : Blanks) : 0x0A ∉ blanks.source := fun member =>
  absurd (blanks.areBlank _ member) (by decide)

theorem Blanks.isBlank_of_mem (blanks : Blanks) (member : unit ∈ blanks.source) :
    unit.isBlank = true := by
  rcases Bool.or_eq_true_iff.mp (blanks.areBlank unit member) with isSpace | isTab
  · exact eq_of_beq isSpace ▸ by decide
  · exact eq_of_beq isTab ▸ by decide

theorem Spacing.areLayoutUnits (spacing : Spacing text) :
    ∀ unit ∈ text, isLayoutUnit unit = true := by
  induction spacing with
  | nil => exact List.forall_mem_nil _
  | blank isBlank _ inductionHypothesis =>
    exact List.forall_mem_cons.mpr ⟨isLayoutUnit_of_isSpaceOrTab isBlank, inductionHypothesis⟩
  | newline newline _ inductionHypothesis =>
    exact List.forall_mem_append.mpr ⟨newline.areLayoutUnits, inductionHypothesis⟩

theorem Comment.lineFeed_not_mem (comment : Comment dialect) : 0x0A ∉ comment.text := fun member =>
  absurd ((comment.areUnits _ member).symm.trans dialect.not_isCommentUnit_lineFeed) (by decide)

theorem lineFeed_not_mem_commentSource (comment : Option (Comment dialect)) :
    0x0A ∉ commentSource comment := by
  cases comment with
  | none => exact List.not_mem_nil
  | some comment =>
    exact mt List.mem_cons.mp (not_or.mpr ⟨by decide, comment.lineFeed_not_mem⟩)

/-- A comment is passed over up to its line feed, or to the end of the text. -/
theorem triviaLength_commentSource (comment : Option (Comment dialect)) (newline : Newline)
    (rest : Text) :
    triviaLength false (commentSource comment ++ (newline.source ++ rest)) =
      (commentSource comment).length + (newline.source.length + triviaLength false rest) := by
  cases comment with
  | none =>
    exact (Cursor.triviaLength_append newline.areLayoutUnits rest).trans (Nat.zero_add _).symm
  | some comment =>
    -- the comment takes the carriage return of its line ending with it
    obtain ⟨front, splits, noBreak⟩ := newline.exists_front
    have oneLine : 0x0A ∉ comment.text ++ front :=
      mt List.mem_append.mp (not_or.mpr ⟨comment.lineFeed_not_mem, noBreak⟩)
    have passes := Cursor.triviaLength_comment oneLine (0x0A :: rest) (Or.inr rfl)
    have feed : triviaLength false (0x0A :: rest) = 1 + triviaLength false rest :=
      Cursor.triviaLength_cons_of_isLayoutUnit (by decide) rest
    simp only [commentSource, Comment.source, splits, List.cons_append, List.append_assoc,
      List.nil_append, List.length_cons, List.length_append, List.length_nil] at passes ⊢
    change 1 + triviaLength true _ = _
    rw [passes, feed]
    omega

theorem Gap.triviaLength_append (gap : Gap dialect) (rest : Text) :
    triviaLength false (gap.source ++ rest) = gap.source.length + triviaLength false rest := by
  induction gap with
  | none => exact (Nat.zero_add _).symm
  | blank unit isBlank gap inductionHypothesis =>
    rw [source, List.cons_append, Cursor.triviaLength_cons_of_isLayoutUnit
      (isLayoutUnit_of_isSpaceOrTab isBlank), inductionHypothesis, List.length_cons]
    omega
  | newline comment ending gap inductionHypothesis =>
    rw [source, List.append_assoc, List.append_assoc, triviaLength_commentSource,
      inductionHypothesis, List.length_append, List.length_append]
    omega

/-! ### Strings -/

/-- A unit of a string that neither begins what closes the string nor is an escape. -/
theorem stringBodyLength_cons (plain : quote = doubleQuote → unit ≠ backslash)
    (goesOn : ¬quotes quote multiline <+: unit :: rest)
    (oneLine : multiline = false → unit ≠ 0x0A) :
    stringBodyLength quote multiline (unit :: rest) =
      1 + stringBodyLength quote multiline rest := by
  have noEscape : ¬((quote = 0x22 && unit = 0x5C) = true) := by
    simpa [doubleQuote, backslash] using plain
  rw [stringBodyLength.eq_def]
  dsimp only
  rw [if_neg noEscape]
  cases multiline with
  | true =>
    have open_ : ¬((unit = quote && Text.startsWith rest [quote, quote]) = true) := fun closes =>
      goesOn (by
        obtain ⟨isQuote, begins⟩ := Bool.and_eq_true_iff.mp closes
        rw [of_decide_eq_true isQuote]
        exact List.cons_prefix_cons.mpr ⟨rfl, List.isPrefixOf_iff_prefix.mp begins⟩)
    rw [if_pos rfl, if_neg open_]
  | false =>
    have notQuote : unit ≠ quote := fun same => goesOn (same ▸ List.prefix_append [unit] rest)
    rw [if_neg Bool.false_ne_true, if_neg notQuote, if_neg (oneLine rfl)]

theorem stringBodyLength_append
    (passes : ∀ unit ∈ taken, unit ≠ quote ∧ unit ≠ backslash ∧ (multiline = false → unit ≠ 0x0A))
    (rest : Text) :
    stringBodyLength quote multiline (taken ++ rest) =
      taken.length + stringBodyLength quote multiline rest := by
  induction taken with
  | nil => exact (Nat.zero_add _).symm
  | cons unit taken inductionHypothesis =>
    obtain ⟨⟨notQuote, notEscape, oneLine⟩, others⟩ := List.forall_mem_cons.mp passes
    have goesOn : ¬quotes quote multiline <+: unit :: (taken ++ rest) := by
      cases multiline <;> exact fun closes => notQuote (List.cons_prefix_cons.mp closes).1.symm
    rw [List.cons_append, stringBodyLength_cons (fun _ => notEscape) goesOn oneLine,
      inductionHypothesis others, List.length_cons]
    omega

/-- A backslash counts for two units, whatever follows it. -/
theorem stringBodyLength_backslash (unit : CodeUnit) (rest : Text) :
    stringBodyLength doubleQuote multiline (backslash :: unit :: rest) =
      2 + stringBodyLength doubleQuote multiline rest := by
  rw [stringBodyLength.eq_def]
  rfl

theorem stringBodyLength_quotes (unquoted : multiline = true → after.head? ≠ some quote) :
    stringBodyLength quote multiline (quotes quote multiline ++ after) =
      (quotes quote multiline).length := by
  have noEscape : ¬((quote = 0x22 && quote = 0x5C) = true) := by
    rintro both
    simp only [Bool.and_eq_true, decide_eq_true_eq] at both
    exact absurd (both.1.symm.trans both.2) (by decide)
  cases multiline with
  | false =>
    change stringBodyLength quote false (quote :: after) = 1
    rw [stringBodyLength.eq_def]
    dsimp only
    rw [if_neg noEscape, if_neg Bool.false_ne_true, if_pos rfl]
  | true =>
    have noMore : after.takeWhile (· == quote) = [] := by
      cases after with
      | nil => rfl
      | cons unit after =>
        have unlike : unit ≠ quote := fun same => unquoted rfl (congrArg some same)
        exact List.takeWhile_cons_of_neg (by simpa using unlike)
    change stringBodyLength quote true (quote :: quote :: quote :: after) = 3
    rw [stringBodyLength.eq_def]
    dsimp only
    rw [if_neg noEscape, if_pos rfl, if_pos (by simp [Text.startsWith])]
    exact congrArg (3 + ·.length) noMore

theorem isHexDigit_passes (isDigit : unit.isHexDigit = true) :
    unit ≠ doubleQuote ∧ unit ≠ backslash ∧ (multiline = false → unit ≠ 0x0A) := by
  refine ⟨?_, ?_, fun _ => ?_⟩ <;> rintro rfl <;> exact absurd isDigit (by decide)

theorem isLayoutUnit_passes (isQuote : IsQuote quote) (isLayout : isLayoutUnit unit = true) :
    unit ≠ quote ∧ unit ≠ backslash := by
  refine ⟨?_, ?_⟩ <;> rintro rfl
  · obtain rfl | rfl := isQuote <;> exact absurd isLayout (by decide)
  · exact absurd isLayout (by decide)

namespace Body

variable (body : Body dialect quote multiline numeric source text)

include body

theorem length_quotes_le : (quotes quote multiline).length ≤ source.length := by
  induction body with
  | close => exact Nat.le_refl _
  | unit _ _ _ _ inductionHypothesis => exact Nat.le_succ_of_le inductionHypothesis
  | escape _ _ _ inductionHypothesis | newline _ _ _ inductionHypothesis
  | joined _ _ _ _ _ _ _ _ inductionHypothesis =>
    refine Nat.le_trans inductionHypothesis ?_
    simp only [List.length_append, List.length_cons]
    omega

/-- The scanner takes the body of a string up to its closing quotes. -/
theorem stringBodyLength_eq (isQuote : IsQuote quote)
    (unquoted : multiline = true → after.head? ≠ some quote) :
    stringBodyLength quote multiline (source ++ after) = source.length := by
  induction body with
  | close => exact stringBodyLength_quotes unquoted
  | @unit unit rest _ allowed goesOn plain more inductionHypothesis =>
    have onward : ¬quotes quote multiline <+: unit :: (rest ++ after) := fun closes =>
      goesOn (List.prefix_of_prefix_length_le closes (List.prefix_append (unit :: rest) after)
        (Nat.le_succ_of_le more.length_quotes_le))
    have oneLine : unit ≠ 0x0A := fun isFeed =>
      absurd (allowed.symm.trans (dialect.not_isStringUnit_of_break _ (Or.inl isFeed))) (by decide)
    rw [List.cons_append, stringBodyLength_cons plain onward fun _ => oneLine,
      inductionHypothesis, List.length_cons, Nat.add_comm]
  | @escape escape _ rest _ isDouble escapes _ inductionHypothesis =>
    subst isDouble
    cases escapes with
    | short =>
      change stringBodyLength doubleQuote multiline (backslash :: _ :: (rest ++ after)) = _
      rw [stringBodyLength_backslash, inductionHypothesis]
      simp only [List.cons_append, List.nil_append, List.length_cons]
      omega
    | @number _ digits _ _ areDigits =>
      have passes : stringBodyLength doubleQuote multiline (digits ++ (rest ++ after)) =
          digits.length + stringBodyLength doubleQuote multiline (rest ++ after) :=
        stringBodyLength_append (fun unit member => isHexDigit_passes (areDigits unit member)) _
      simp only [List.cons_append, List.append_assoc]
      rw [stringBodyLength_backslash, passes, inductionHypothesis]
      simp only [List.length_cons, List.length_append]
      omega
  | @newline rest _ isMultiline newline _ inductionHypothesis =>
    have passes : ∀ unit ∈ newline.source,
        unit ≠ quote ∧ unit ≠ backslash ∧ (multiline = false → unit ≠ 0x0A) := fun unit member =>
      have ⟨notQuote, notEscape⟩ := isLayoutUnit_passes isQuote (newline.areLayoutUnits unit member)
      ⟨notQuote, notEscape, fun isLine => absurd (isLine.symm.trans isMultiline) (by decide)⟩
    rw [List.append_assoc, stringBodyLength_append passes, inductionHypothesis, List.length_append]
  | @joined spacing rest _ isDouble isMultiline blanks newline isSpacing _ _ _ inductionHypothesis =>
    subst isDouble
    have areLayout : ∀ unit ∈ blanks.source ++ (newline.source ++ spacing),
        isLayoutUnit unit = true :=
      List.forall_mem_append.mpr
        ⟨fun unit member => isLayoutUnit_of_isSpaceOrTab (blanks.areBlank unit member),
          List.forall_mem_append.mpr ⟨newline.areLayoutUnits, isSpacing.areLayoutUnits⟩⟩
    obtain ⟨first, others, splits⟩ : ∃ first others,
        blanks.source ++ (newline.source ++ spacing) = first :: others :=
      List.exists_cons_of_ne_nil (by cases newline <;> simp [Newline.source])
    rw [splits] at areLayout
    have passes : stringBodyLength doubleQuote multiline (others ++ (rest ++ after)) =
        others.length + stringBodyLength doubleQuote multiline (rest ++ after) :=
      stringBodyLength_append (fun unit member =>
        have ⟨notQuote, notEscape⟩ := isLayoutUnit_passes isQuote
          (areLayout unit (List.mem_cons_of_mem _ member))
        ⟨notQuote, notEscape, fun isLine => absurd (isLine.symm.trans isMultiline) (by decide)⟩) _
    have whole : blanks.source ++ (newline.source ++ (spacing ++ rest)) =
        first :: (others ++ rest) := by
      rw [← List.cons_append, ← splits]
      simp only [List.append_assoc]
    rw [whole]
    simp only [List.cons_append, List.append_assoc]
    rw [stringBodyLength_backslash, passes, inductionHypothesis]
    simp only [List.length_cons, List.length_append]
    omega

end Body

theorem IsQuote.isQuote_eq_true (isQuoted : IsQuote quote) : isQuote quote = true := by
  obtain rfl | rfl := isQuoted <;> decide

theorem IsQuote.head?_ne (isQuoted : IsQuote quote)
    (unquoted : ∀ unit ∈ after.head?, isQuote unit = false) : after.head? ≠ some quote := fun same =>
  absurd ((unquoted quote same).symm.trans isQuoted.isQuote_eq_true) (by decide)

theorem stringLength_line (isQuote : IsQuote quote)
    (body : Body dialect quote false numeric source text) (unquoted : after.head? ≠ some quote) :
    stringLength quote (quote :: source ++ after) = (quote :: source).length := by
  have single : ¬Text.startsWith (quote :: source ++ after) [quote, quote, quote] = true := by
    rw [Text.startsWith, List.isPrefixOf_iff_prefix]
    intro triple
    have double := (List.cons_prefix_cons.mp triple).2
    cases body with
    | close =>
      obtain ⟨others, rfl⟩ := (List.cons_prefix_cons.mp double).2
      exact unquoted rfl
    | unit _ goesOn =>
      obtain ⟨rfl, -⟩ := List.cons_prefix_cons.mp double
      exact goesOn (List.prefix_append [_] _)
    | escape isDouble =>
      subst isDouble
      exact absurd (List.cons_prefix_cons.mp double).1 (by decide)
    | newline isMultiline => cases isMultiline
    | joined _ isMultiline => cases isMultiline
  rw [stringLength, if_neg single]
  change 1 + stringBodyLength quote false (source ++ after) = _
  rw [body.stringBodyLength_eq isQuote nofun, List.length_cons, Nat.add_comm]

theorem stringLength_lines (isQuote : IsQuote quote) {breaks : Text}
    (areLayout : ∀ unit ∈ breaks, isLayoutUnit unit = true)
    (body : Body dialect quote true numeric source text) (unquoted : after.head? ≠ some quote) :
    stringLength quote (quotes quote true ++ (breaks ++ source) ++ after) =
      (quotes quote true ++ (breaks ++ source)).length := by
  have triple : Text.startsWith (quotes quote true ++ (breaks ++ source) ++ after)
      [quote, quote, quote] = true := by
    rw [Text.startsWith, List.isPrefixOf_iff_prefix, List.append_assoc]
    exact List.prefix_append _ _
  rw [stringLength, if_pos triple]
  have dropped : (quotes quote true ++ (breaks ++ source) ++ after).drop 3 =
      breaks ++ (source ++ after) := by
    simp only [List.append_assoc]
    rfl
  rw [dropped, stringBodyLength_append, body.stringBodyLength_eq isQuote fun _ => unquoted]
  · simp only [List.length_append]
    rfl
  · intro unit member
    obtain ⟨notQuote, notEscape⟩ := isLayoutUnit_passes isQuote (areLayout unit member)
    exact ⟨notQuote, notEscape, nofun⟩

/-- The scanner takes a string as it is written, if no further quote follows it. -/
theorem IsString.stringLength_eq (isString : IsString dialect source text)
    (unquoted : ∀ unit ∈ after.head?, isQuote unit = false) :
    ∃ quote rest, source = quote :: rest ∧ isQuote quote = true ∧
      stringLength quote (source ++ after) = source.length := by
  cases isString with
  | line isQuoted body =>
    exact ⟨_, _, rfl, isQuoted.isQuote_eq_true,
      stringLength_line isQuoted body (isQuoted.head?_ne unquoted)⟩
  | lines isQuoted _ body =>
    exact ⟨_, _, rfl, isQuoted.isQuote_eq_true, stringLength_lines isQuoted
      (List.forall_mem_nil _ : ∀ unit ∈ [], isLayoutUnit unit = true) body (isQuoted.head?_ne unquoted)⟩
  | brokenLines isQuoted newline body =>
    refine ⟨_, _, rfl, isQuoted.isQuote_eq_true, ?_⟩
    have taken := stringLength_lines isQuoted newline.areLayoutUnits body
      (isQuoted.head?_ne unquoted)
    rwa [← List.append_assoc (quotes _ true)] at taken

end SourceLint.Toml
