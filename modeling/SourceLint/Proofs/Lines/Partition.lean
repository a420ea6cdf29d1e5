/-
This file proves that the lines of a text cut it without loss. Their spans begin at its start and
reach to its end; between two neighbours stands one line ending and nothing else, no ending is cut
in two, and the endings of each kind are as many as are counted. The texts of the lines are the
pieces that are left when the text is searched from the left for line breaks, where the pair counts
as one break because it is tried before its two units.
-/
import SourceLint.Proofs.Lines.Joined
import SourceLint.Proofs.Lines.Newlines

namespace SourceLint

/-- The line break at the start of a text: the first of the pair, the carriage return and the line
feed that the text begins with. -/
def Text.breakAt? (text : Text) : Option Newline :=
  [Newline.crlf, .cr, .lf].find? fun newline => text.startsWith newline.text

/-- The pieces of a text between its line breaks, which are searched from the left; `piece` is what
has been read of the first one. -/
def Text.piecesAtBreaks (piece : Text) : Text → List Text
  | [] => [piece]
  | unit :: rest =>
    match breakAt? (unit :: rest) with
    | some newline => piece :: piecesAtBreaks [] ((unit :: rest).drop newline.text.length)
    | none => piecesAtBreaks (piece ++ [unit]) rest
termination_by text => text.length
decreasing_by
  · have positive := newline.text_length_pos
    rw [List.length_drop, List.length_cons]
    omega
  · exact Nat.lt_succ_self _

/-- The pieces of a text between its line breaks. -/
def Text.splitAtBreaks (text : Text) : List Text := piecesAtBreaks [] text

/-- The stretches of a text between neighbouring spans. -/
def Span.gaps (content : Text) (spans : List Span) : List Text :=
  List.zipWith (fun span next => content.slice span.stop next.start) spans spans.tail

/-- Lines that cut a text without loss. -/
structure Lines.Partition (lines : Lines) (content : Text) : Prop where
  begins : ∃ stop, lines.spans.head? = some ⟨0, stop⟩
  ends : ∃ start, lines.spans.getLast? = some ⟨start, content.length⟩
  /-- Between two neighbours stands one line ending. -/
  gaps : ∀ gap ∈ Span.gaps content lines.spans, ∃ newline : Newline, gap = newline.text
  isOneLine : ∀ span ∈ lines.spans, span.start ≤ span.stop ∧ (span.text content).OneLine
  /-- No span begins or ends between the two units of a line ending. -/
  whole : ∀ span ∈ lines.spans,
    ¬content.SplitsBreak span.start ∧ ¬content.SplitsBreak span.stop
  count_eq : ∀ newline : Newline,
    lines.count newline = (Span.gaps content lines.spans).count newline.text
  texts_eq : lines.spans.map (fun span => span.text content) = content.splitAtBreaks
  /-- The texts of the lines with what stands between them make up the text. -/
  joined : alternate (lines.spans.map fun span => span.text content)
    (Span.gaps content lines.spans) = content

/-! ### Searching for line breaks -/

namespace Text

theorem breakAt?_eq_none {unit : CodeUnit} (notFeed : unit ≠ 0x0A) (notReturn : unit ≠ 0x0D)
    (rest : Text) : breakAt? (unit :: rest) = none := by
  simp [breakAt?, startsWith, Newline.text, Ne.symm notFeed, Ne.symm notReturn]

/-- A line ending is found whole, unless a carriage return has a line feed behind it. -/
theorem breakAt?_newline_append (newline : Newline) (below : Text)
    (apart : newline = .cr → below.head? ≠ some 0x0A) :
    breakAt? (newline.text ++ below) = some newline := by
  cases newline with
  | lf => rfl
  | crlf => rfl
  | cr =>
    cases below with
    | nil => rfl
    | cons unit rest =>
      have notFeed : 0x0A ≠ unit := fun same => apart rfl (congrArg some same.symm)
      simp [breakAt?, startsWith, Newline.text, List.isPrefixOf, notFeed]

/-- A stretch without a line ending goes into the piece as it is. -/
theorem piecesAtBreaks_append (piece line below : Text) (isOneLine : line.OneLine) :
    piecesAtBreaks piece (line ++ below) = piecesAtBreaks (piece ++ line) below := by
  induction line generalizing piece with
  | nil => rw [List.nil_append, List.append_nil]
  | cons unit line inductionHypothesis =>
    obtain ⟨⟨notFeed, notReturn⟩, others⟩ := List.forall_mem_cons.mp isOneLine
    rw [List.cons_append, piecesAtBreaks, breakAt?_eq_none notFeed notReturn]
    dsimp only
    rw [inductionHypothesis _ others, List.append_assoc, List.singleton_append]

/-- A line ending closes the piece. -/
theorem piecesAtBreaks_newline_append (piece : Text) (newline : Newline) (below : Text)
    (apart : newline = .cr → below.head? ≠ some 0x0A) :
    piecesAtBreaks piece (newline.text ++ below) = piece :: piecesAtBreaks [] below := by
  have found := breakAt?_newline_append newline below apart
  have behind : (newline.text ++ below).drop newline.text.length = below := List.drop_left
  obtain ⟨unit, rest, same⟩ := List.exists_cons_of_ne_nil
    (List.append_ne_nil_of_left_ne_nil (List.ne_nil_of_length_pos newline.text_length_pos) below)
  rw [same] at found behind ⊢
  rw [piecesAtBreaks, found]
  dsimp only
  rw [behind]

end Text

/-! ### The parts of a text -/

namespace AreLines

variable {parts : List (Text × Option Newline)}

/-- Lines make up a text that begins with a line feed only if the first one is empty and ends with
it. -/
theorem head?_text_ne {next : Text × Option Newline} {rest : List (Text × Option Newline)}
    (areLines : AreLines (next :: rest)) (unlike : next ≠ ([], some .lf)) :
    ((next :: rest).flatMap partText).head? ≠ some 0x0A := by
  intro begins
  obtain ⟨below, whole⟩ := List.head?_eq_some_iff.mp begins
  have parts := areLines.physicalLines_eq
  rw [whole, physicalLines_feed] at parts
  exact unlike (List.head_eq_of_cons_eq parts).symm

theorem splitAtBreaks_eq (areLines : AreLines parts) :
    Text.splitAtBreaks (parts.flatMap partText) = parts.map Prod.fst := by
  rw [Text.splitAtBreaks]
  induction areLines with
  | @last text isOneLine =>
    have alone := Text.piecesAtBreaks_append [] text [] isOneLine
    rw [List.append_nil, List.nil_append, Text.piecesAtBreaks] at alone
    simpa [partText] using alone
  | @cons text newline next rest isOneLine apart more inductionHypothesis =>
    have whole : ((text, some newline) :: next :: rest).flatMap partText =
        text ++ (newline.text ++ (next :: rest).flatMap partText) := List.append_assoc _ _ _
    rw [whole, Text.piecesAtBreaks_append [] text _ isOneLine, List.nil_append,
      Text.piecesAtBreaks_newline_append text newline _ fun isReturn =>
        more.head?_text_ne (apart isReturn),
      inductionHypothesis]
    rfl

/-- The lines with their endings between them make up the text. -/
theorem alternate_eq (areLines : AreLines parts) :
    alternate (parts.map Prod.fst) ((parts.filterMap Prod.snd).map Newline.text) =
      parts.flatMap partText := by
  induction areLines with
  | last isOneLine => simp [partText, alternate]
  | cons isOneLine apart more inductionHypothesis =>
    rw [List.flatMap_cons, ← inductionHypothesis]
    rfl

/-! ### Lines in their places -/

theorem stop_last (areLines : AreLines parts) (start : Nat) :
    ∃ lastStart, ((placeLines start parts).map Line.span).getLast? =
      some ⟨lastStart, start + (parts.flatMap partText).length⟩ := by
  induction areLines generalizing start with
  | @last text isOneLine =>
    refine ⟨start, ?_⟩
    simp [placeLines, partText, Line.span, Line.stop]
  | @cons text newline next rest isOneLine apart more inductionHypothesis =>
    obtain ⟨lastStart, isLast⟩ :=
      inductionHypothesis (start + (partText (text, some newline)).length)
    refine ⟨lastStart, ?_⟩
    rw [List.flatMap_cons, List.length_append, ← Nat.add_assoc, ← isLast]
    exact List.getLast?_cons_cons

/-- Between the spans of two neighbours stands the ending of the first. -/
theorem gaps_eq (areLines : AreLines parts) (above : Text) :
    Span.gaps (above ++ parts.flatMap partText) ((placeLines above.length parts).map Line.span) =
      (parts.filterMap Prod.snd).map Newline.text := by
  induction areLines generalizing above with
  | last isOneLine => rfl
  | @cons text newline next rest isOneLine apart more inductionHypothesis =>
    have others := inductionHypothesis (above ++ partText (text, some newline))
    rw [List.append_assoc, List.length_append] at others
    have own : Text.slice (above ++ ((text, some newline) :: next :: rest).flatMap partText)
        (above.length + text.length) (above.length + (partText (text, some newline)).length) =
          newline.text := by
      have between := Text.slice_append (above ++ text) newline.text
        ((next :: rest).flatMap partText)
      rw [List.length_append] at between
      have stop : (partText (text, some newline)).length = text.length + newline.text.length :=
        List.length_append
      rw [List.flatMap_cons, stop, ← Nat.add_assoc]
      simpa [partText] using between
    exact congrArg₂ List.cons own others

end AreLines

theorem count_filterMap_snd (parts : List (Text × Option Newline)) (newline : Newline) :
    (parts.filterMap Prod.snd).count newline =
      parts.countP fun part => part.2 = some newline := by
  rw [List.count, List.countP_filterMap]
  refine List.countP_congr fun part _ => ?_
  cases part.2 <;> simp

theorem Newline.text_injective : Function.Injective Newline.text := by
  intro first second same
  cases first <;> cases second <;> first | rfl | exact absurd same (by decide)

namespace Lines

variable (content : Text)

/-- The spans of the lines hold their texts. -/
theorem map_text_spans :
    (ofText content).spans.map (fun span => span.text content) =
      (physicalLines content).map Prod.fst := by
  rw [spans, List.map_map, ← map_text_placeLines 0]
  refine List.map_congr_left fun line member => ?_
  obtain ⟨above, below, whole, place, _⟩ := Lines.exists_of_mem content line member
  show content.slice line.start (line.start + line.text.length) = line.text
  rw [whole, ← place, Text.slice_append]

/-- Between the spans of the lines stand their endings. -/
theorem gaps_spans :
    Span.gaps content (ofText content).spans =
      ((physicalLines content).filterMap Prod.snd).map Newline.text := by
  have placed := (areLines_physicalLines content).gaps_eq []
  rwa [flatMap_physicalLines] at placed

theorem head?_spans : ∃ stop, (ofText content).spans.head? = some ⟨0, stop⟩ := by
  obtain ⟨⟨text, ending⟩, rest, parts⟩ := List.exists_cons_of_ne_nil (physicalLines_ne_nil content)
  refine ⟨0 + text.length, ?_⟩
  rw [spans, ofText, parts]
  rfl

theorem getLast?_spans :
    ∃ start, (ofText content).spans.getLast? = some ⟨start, content.length⟩ := by
  obtain ⟨start, isLast⟩ := (areLines_physicalLines content).stop_last 0
  rw [flatMap_physicalLines, Nat.zero_add] at isLast
  exact ⟨start, isLast⟩

/-- The lines of a text cut it without loss. -/
theorem partition_ofText : (ofText content).Partition content where
  begins := head?_spans content
  ends := getLast?_spans content
  gaps gap member := by
    rw [gaps_spans] at member
    obtain ⟨newline, _, same⟩ := List.mem_map.mp member
    exact ⟨newline, same.symm⟩
  isOneLine span member := by
    have isText := List.mem_map_of_mem (f := fun span => span.text content) member
    rw [map_text_spans] at isText
    obtain ⟨part, isPart, same⟩ := List.mem_map.mp isText
    obtain ⟨line, _, rfl⟩ := List.mem_map.mp member
    exact ⟨line.start_le_stop, same ▸ (areLines_physicalLines content).isOneLine isPart⟩
  whole span member := by
    obtain ⟨line, isLine, rfl⟩ := List.mem_map.mp member
    exact ⟨not_splitsBreak_of_mem content line isLine _ (Nat.le_refl _) line.start_le_stop,
      not_splitsBreak_of_mem content line isLine _ line.start_le_stop (Nat.le_refl _)⟩
  count_eq newline := by
    rw [gaps_spans, List.count_map_of_injective _ _ Newline.text_injective, count_filterMap_snd,
      count_ofText]
  texts_eq := by
    rw [map_text_spans, ← (areLines_physicalLines content).splitAtBreaks_eq, flatMap_physicalLines]
  joined := by
    rw [map_text_spans, gaps_spans, (areLines_physicalLines content).alternate_eq,
      flatMap_physicalLines]

end Lines

end SourceLint
