/-
This file says what a run with fixes does to the bytes of a file. A file is text exactly if it holds
no zero byte and is well-formed UTF-8, and then its bytes are those of its text. The spans of the
replacements that count cut the text into the stretches that stay and the parts that go. If they are
apart and split no surrogate pair, then the bytes of the file are the bytes of these one after
another, and a run that fixes the file leaves the stretches as they were, byte for byte, with the
bytes of the new texts between them.
-/
import SourceLint.Proofs.Linter.Splice
import SourceLint.Proofs.Run.Checks
import SourceLint.Proofs.Run.Frame
import SourceLint.Proofs.Text.Pairs
import SourceLint.Proofs.Text.WellFormed

namespace SourceLint

/-- The bytes of stretches and parts that have their surrogates in pairs. -/
theorem encode_alternate (stretches parts : List Text)
    (stretchesPaired : ∀ stretch ∈ stretches, stretch.Paired)
    (partsPaired : ∀ part ∈ parts, part.Paired) :
    Text.encode (alternate stretches parts) =
      alternate (stretches.map Text.encode) (parts.map Text.encode) := by
  induction stretches generalizing parts with
  | nil => rfl
  | cons stretch rest inductionHypothesis =>
    obtain ⟨paired, restPaired⟩ := List.forall_mem_cons.mp stretchesPaired
    cases parts with
    | nil => rw [List.map_cons, List.map_nil, alternate_last, alternate_last]
    | cons part others =>
      obtain ⟨partPaired, othersPaired⟩ := List.forall_mem_cons.mp partsPaired
      rw [List.map_cons, List.map_cons, alternate_cons, alternate_cons,
        (paired.append partPaired).encode_append, paired.encode_append,
        inductionHypothesis others restPaired othersPaired]

/-! ### Replacements that split no pair -/

/-- The span of a replacement splits no surrogate pair of a text, and its new text has all of its
surrogates in pairs. -/
structure Replacement.KeepsSurrogates (content : Text) (replacement : Replacement) : Prop where
  start_whole : ¬content.SplitsPair replacement.span.start
  stop_whole : ¬content.SplitsPair replacement.span.stop
  newText_paired : replacement.newText.Paired

namespace Replacement

variable {content : Text} {replacements : List Replacement}

/-- A text from a position on is the stretches behind it with the parts that the spans cover. -/
theorem alternate_gaps {position : Nat}
    (proper : ∀ replacement ∈ replacements, replacement.Proper)
    (beyond : ∀ replacement ∈ replacements, position ≤ replacement.span.start)
    (inRow : replacements.Pairwise fun left right => left.span.stop ≤ right.span.start) :
    alternate (gaps content position replacements)
      (replacements.map fun replacement => replacement.span.text content) =
      content.drop position := by
  induction replacements generalizing position with
  | nil => exact alternate_last _ _
  | cons replacement rest inductionHypothesis =>
    obtain ⟨forward, restProper⟩ := List.forall_mem_cons.mp proper
    obtain ⟨before, restInRow⟩ := List.pairwise_cons.mp inRow
    have start := beyond replacement List.mem_cons_self
    rw [gaps, List.map_cons, alternate_cons, inductionHypothesis restProper before restInRow,
      Span.text, List.append_assoc, Text.slice_append_drop content _ _ forward,
      Text.slice_append_drop content _ _ start]

/-- The stretches between spans that split no pair have their surrogates in pairs. -/
theorem paired_of_mem_gaps (paired : content.Paired) {position : Nat}
    (whole : ¬content.SplitsPair position)
    (keeps : ∀ replacement ∈ replacements, replacement.KeepsSurrogates content) :
    ∀ stretch ∈ gaps content position replacements, stretch.Paired := by
  induction replacements generalizing position with
  | nil =>
    intro stretch member
    rw [List.mem_singleton.mp member]
    exact (paired.take_drop position whole).2
  | cons replacement rest inductionHypothesis =>
    obtain ⟨own, others⟩ := List.forall_mem_cons.mp keeps
    rw [gaps, List.forall_mem_cons]
    exact ⟨paired.slice whole own.start_whole, inductionHypothesis own.stop_whole others⟩

end Replacement

namespace Linter

variable (linter : Linter)

/-- The bytes of the stretches of the text that no span of a replacement that counts covers. -/
def keptBytes : List (List UInt8) :=
  (Replacement.gaps linter.source.content 0 linter.replacements).map Text.encode

/-- The bytes of the parts that the spans cover. -/
def replacedBytes : List (List UInt8) :=
  linter.replacements.map fun replacement =>
    Text.encode (replacement.span.text linter.source.content)

/-- The bytes of the new texts. -/
def newBytes : List (List UInt8) :=
  linter.replacements.map fun replacement => Text.encode replacement.newText

/-- The replacements that count can be put in byte by byte: each is proper and splits no pair, and
they are apart. -/
structure FitsBytes : Prop where
  proper : ∀ replacement ∈ linter.proposed, replacement.Proper
  keepsSurrogates : ∀ replacement ∈ linter.proposed,
    replacement.KeepsSurrogates linter.source.content
  apart : Replacement.Apart linter.proposed

namespace FitsBytes

variable {linter : Linter} (fits : linter.FitsBytes)

include fits

theorem keepsSurrogates_sorted : ∀ replacement ∈ linter.replacements,
    replacement.KeepsSurrogates linter.source.content := fun replacement member =>
  fits.keepsSurrogates replacement (linter.replacements_stableOrder.perm.subset member)

theorem firstClash_eq_none : firstClash linter.replacements = none :=
  linter.firstClash_eq_none_of_apart fits.proper fits.apart

/-- Whatever stands between the stretches that stay, their bytes are kept. -/
theorem encode_alternate_gaps (paired : linter.source.content.Paired) (part : Replacement → Text)
    (partPaired : ∀ replacement ∈ linter.replacements, (part replacement).Paired) :
    Text.encode (alternate (Replacement.gaps linter.source.content 0 linter.replacements)
        (linter.replacements.map part)) =
      alternate linter.keptBytes
        (linter.replacements.map fun replacement => Text.encode (part replacement)) := by
  have gapsPaired := Replacement.paired_of_mem_gaps paired (Text.not_splitsPair_zero _)
    fits.keepsSurrogates_sorted
  rw [encode_alternate _ _ gapsPaired (List.forall_mem_map.mpr partPaired), List.map_map]
  rfl

/-- The bytes of a text are those of the stretches that stay and of the parts that go. -/
theorem encode_content (paired : linter.source.content.Paired) :
    Text.encode linter.source.content = alternate linter.keptBytes linter.replacedBytes := by
  have proper : ∀ replacement ∈ linter.replacements, replacement.Proper := fun replacement member =>
    fits.proper replacement (linter.replacements_stableOrder.perm.subset member)
  have cut : alternate (Replacement.gaps linter.source.content 0 linter.replacements)
      (linter.replacements.map fun replacement => replacement.span.text linter.source.content) =
        linter.source.content.drop 0 :=
    Replacement.alternate_gaps proper (fun _ _ => Nat.zero_le _)
      (pairwise_of_firstClash_eq_none _ proper fits.firstClash_eq_none)
  rw [List.drop_zero] at cut
  calc Text.encode linter.source.content
      = Text.encode (alternate (Replacement.gaps linter.source.content 0 linter.replacements)
          (linter.replacements.map fun replacement =>
            replacement.span.text linter.source.content)) := by rw [cut]
    _ = alternate linter.keptBytes linter.replacedBytes :=
        fits.encode_alternate_gaps paired _ fun replacement member =>
          have keeps := fits.keepsSurrogates_sorted replacement member
          paired.slice keeps.start_whole keeps.stop_whole

/-- The fix puts the bytes of the new texts in the place of the parts that go. -/
theorem exists_fix (paired : linter.source.content.Paired) :
    ∃ fixed, linter.fix = .ok fixed ∧
      Text.encode fixed = alternate linter.keptBytes linter.newBytes := by
  refine ⟨_, (linter.fix_eq_ok_iff _).mpr ⟨fits.firstClash_eq_none, rfl⟩, ?_⟩
  rw [Replacement.splice_eq_flatten]
  exact fits.encode_alternate_gaps paired _ fun replacement member =>
    (fits.keepsSurrogates_sorted replacement member).newText_paired

end FitsBytes

end Linter

/-! ### Files -/

namespace Plan

theorem paired_of_textOfBytes? (bytes : List UInt8) (content : Text)
    (text : textOfBytes? bytes = some content) : content.Paired :=
  Text.paired_of_decode? bytes content (decode?_of_textOfBytes? bytes content text)

theorem textOfBytes?_eq_none_iff (bytes : List UInt8) :
    textOfBytes? bytes = none ↔ 0 ∈ bytes ∨ ¬Text.WellFormed bytes := by
  rw [← Text.exists_decode?_iff, ← Option.isSome_iff_exists, textOfBytes?]
  by_cases zero : 0 ∈ bytes <;> simp [zero]

variable {State : Type} (plan : Plan State)

/-- What a text holds after it is linted with fixes that can be put in: the fixed text, but if the
report on it breaks off then it is not written. -/
theorem read_of_lintFile (fixing : plan.fix = true) (progress : Progress State) (file : Text)
    (bytes : List UInt8) (reads : progress.store.read file = .ok bytes) (content : Text)
    (text : textOfBytes? bytes = some content) (warnings : List Warning)
    (checks : (plan.checked progress (plan.sourceOf file content)).1.result = .ok warnings)
    (fixed : Text) (fixes : (⟨plan.sourceOf file content, warnings⟩ : Linter).fix = .ok fixed) :
    (plan.lintFile progress file).1.store.read file =
      .ok (if (Report.ofLinter plan.style ⟨plan.sourceOf file content, warnings⟩ true).failure = none
        then Text.encode fixed else bytes) := by
  have finalText : plan.finalText ⟨plan.sourceOf file content, warnings⟩ = .ok fixed :=
    (if_pos fixing).trans fixes
  cases failure : (Report.ofLinter plan.style ⟨plan.sourceOf file content, warnings⟩ true).failure with
  | none =>
    rw [(plan.lints_iff progress file _).mp (.done bytes reads content text warnings checks fixed
      finalText _ rfl (by rw [fixing]; exact failure)), if_pos rfl]
    exact plan.read_settle progress.store file bytes reads content text fixed
  | some error =>
    rw [(plan.lints_iff progress file _).mp (.reportFails bytes reads content text warnings checks
      fixed finalText _ rfl error (by rw [fixing]; exact failure)), if_neg (Option.some_ne_none _)]
    exact reads

/-- A file that is taken as text holds the UTF-8 form of that text, also if it begins with a byte
order mark, and a file is not taken as text exactly if it holds a zero byte or is not well-formed.
So if the replacements that count for a text fit its bytes, then a run that fixes the text changes
nothing but the bytes of the spans that are replaced, also if a later file fails; the other files
that it changes are those of the run. If the report on the text breaks off then all of it stays. -/
theorem bytes_of_fixing_run :
    (∀ bytes content, textOfBytes? bytes = some content → Text.encode content = bytes) ∧
      (∀ bytes, textOfBytes? bytes = none ↔ 0 ∈ bytes ∨ ¬Text.WellFormed bytes) ∧
      ∀ (start reached final : Progress State) (before : List Text) (file : Text)
        (after : List Text) (result : Except LintError Unit) (bytes : List UInt8) (content : Text)
        (warnings : List Warning),
        plan.fix = true →
        plan.run start before = (reached, .ok ()) →
        plan.run start (before ++ file :: after) = (final, result) →
        reached.store.read file = .ok bytes →
        textOfBytes? bytes = some content →
        (plan.checked reached (plan.sourceOf file content)).1.result = .ok warnings →
        let linter : Linter := ⟨plan.sourceOf file content, warnings⟩
        let held := if (Report.ofLinter plan.style linter true).failure = none then
          alternate linter.keptBytes linter.newBytes else bytes
        linter.FitsBytes →
          bytes = alternate linter.keptBytes linter.replacedBytes ∧
            (plan.lintFile reached file).1.store.read file = .ok held ∧
            FileStore.AgreesOutside [file] reached.store (plan.lintFile reached file).1.store ∧
            (start.store.locate file ∉ after.map start.store.locate →
              final.store.read file = .ok held) ∧
            FileStore.AgreesOutside (before ++ file :: after) start.store final.store := by
  refine ⟨encode_of_textOfBytes?, textOfBytes?_eq_none_iff, ?_⟩
  intro start reached final before file after result bytes content warnings fixing done ends reads
    text checks linter held fits
  have paired : linter.source.content.Paired := paired_of_textOfBytes? bytes content text
  have whole : bytes = alternate linter.keptBytes linter.replacedBytes :=
    (encode_of_textOfBytes? bytes content text).symm.trans (fits.encode_content paired)
  obtain ⟨fixed, fixes, fixedBytes⟩ := fits.exists_fix paired
  have leaves : (plan.lintFile reached file).1.store.read file = .ok held := by
    rw [plan.read_of_lintFile fixing reached file bytes reads content text warnings checks fixed
      fixes, fixedBytes]
  have outside : FileStore.AgreesOutside [file] reached.store
      (plan.lintFile reached file).1.store :=
    ((plan.lints_iff reached file _).mpr rfl).agreesOutside
  refine ⟨whole, leaves, outside, fun alone => ?_, agreesOutside_of_run start final _ result ends⟩
  have behind := agreesOutside_behind start reached final before file after result done ends
  have toReached := agreesOutside_of_run start reached before _ done
  rw [← leaves]
  refine behind.read_eq file ?_
  rwa [funext outside.locate_eq, funext toReached.locate_eq]

/-- A plan that replaces the fourth unit of every text. -/
def replacesFourth : Plan Unit :=
  { checkName := "check"
    checks := [.replacing ⟨3, 4⟩ "é"]
    fix := true
    style := .plain }

/-- A text with a byte order mark and a character beyond the basic plane. -/
def markedText : Progress Unit :=
  { store := .ofEntries [] [("text", .file [0xEF, 0xBB, 0xBF, 0xF0, 0x9F, 0x98, 0x80, 0x62])]
    state := () }

theorem bytes_of_fixing_replacesFourth : ∃ final,
    replacesFourth.run markedText ["text"] = (final, .ok ()) ∧
      final.store.read "text" = .ok [0xEF, 0xBB, 0xBF, 0xF0, 0x9F, 0x98, 0x80, 0xC3, 0xA9] := by
  let bytes : List UInt8 := [0xEF, 0xBB, 0xBF, 0xF0, 0x9F, 0x98, 0x80, 0x62]
  let content : Text := [0xFEFF, 0xD83D, 0xDE00, 0x62]
  let warnings : List Warning := [⟨⟨3, 4⟩, "message", [⟨⟨3, 4⟩, "é"⟩], []⟩]
  let linter : Linter := ⟨replacesFourth.sourceOf "text" content, warnings⟩
  have text : textOfBytes? bytes = some content := by decide +kernel
  have given : linter.proposed = [⟨⟨3, 4⟩, "é"⟩] := by decide +kernel
  have sorted : linter.replacements = [⟨⟨3, 4⟩, "é"⟩] :=
    (linter.replacements_eq_proposed (by decide +kernel)).trans given
  have fits : linter.FitsBytes := by
    refine ⟨?_, ?_, ?_⟩ <;> rw [given]
    · decide
    · rw [List.forall_mem_singleton]
      exact ⟨by decide +kernel, by decide +kernel, .unit (.inl (by decide)) .nil⟩
    · exact Replacement.apart_of_pairwise _ (List.pairwise_singleton _ _)
  have whole : (Report.ofLinter replacesFourth.style linter true).failure = none :=
    Linter.failure_ofLinter_of_placed "text" content _ warnings (by decide +kernel) .plain true
  obtain ⟨fixed, fixes, _⟩ := fits.exists_fix (paired_of_textOfBytes? bytes content text)
  have finalText : replacesFourth.finalText linter = .ok fixed := fixes
  have passed := (replacesFourth.lints_iff markedText "text" _).mp
    (.done bytes rfl content text warnings rfl fixed finalText _ rfl whole)
  have ends := replacesFourth.run_cons_of_ok markedText "text" [] _ passed
  obtain ⟨_, _, _, held, _⟩ := (bytes_of_fixing_run replacesFourth).2.2 markedText markedText _ []
    "text" [] (.ok ()) bytes content warnings rfl rfl ends rfl text rfl fits
  refine ⟨_, ends, (held List.not_mem_nil).trans ?_⟩
  rw [if_pos whole, Linter.keptBytes, Linter.newBytes, sorted]
  decide +kernel

end Plan

end SourceLint
