/-
What a reader of YAML owes when scalars of a document are written anew. The reader itself is not part
of the checks; what is asked of it here is what the rules of YAML say. The scalars of a document stand
in it one behind the other, and if one of them is replaced by a source that stands for a text where it
is put, then the document has that text in place of the old one, and else is what it was, with all that
stands behind moved. A source in the quotes of the scalar stands for its text anywhere; a plain one does
where no sign in it is taken for one of the document. From one replacement the same follows for as many
as a fix puts in, from the last to the first.
-/
import SourceLint.Proofs.Linter.Splice
import SourceLint.Proofs.Yaml.Quoted

namespace SourceLint.Yaml

/-! ### Plain scalars -/

/-- The signs that end a plain scalar in brackets. -/
def flowSigns : List CodeUnit := [',', '[', ']', '{', '}']

/-- A text that may be written without quotes on one line: it begins with a letter or a digit, and
nothing in it is taken for the end of a key or the start of a comment. -/
structure IsPlain (text : Text) : Prop where
  begins : text.head?.any CodeUnit.isAlphanumeric = true
  ends : ∀ unit ∈ text.getLast?, unit.isSpaceOrTab = false ∧ unit ≠ ':'
  quotable : text.Quotable
  printable : ∀ unit ∈ text, unit ≠ 0x0A ∧ unit ≠ 0x0D ∧ ¬(0x7F ≤ unit ∧ unit < 0xA0) ∧
    unit ≠ 0xFEFF ∧ unit ≠ 0xFFFE ∧ unit ≠ 0xFFFF
  noKey : ∀ blank : CodeUnit, blank.isSpaceOrTab = true → ¬[0x3A, blank] <:+: text
  noComment : ∀ blank : CodeUnit, blank.isSpaceOrTab = true → ¬[blank, 0x23] <:+: text

/-- The words that stand for no text, in some version of YAML. -/
def words : List Text :=
  ["null", "Null", "NULL", "true", "True", "TRUE", "false", "False", "FALSE", "y", "Y", "yes", "Yes",
    "YES", "n", "N", "no", "No", "NO", "on", "On", "ON", "off", "Off", "OFF"]

/-- A text with the beginning of a number or a date: digits, and nothing behind them or a sign that
goes on with one. -/
def beginsNumber (text : Text) : Bool :=
  let rest := text.dropWhile fun unit : CodeUnit => unit.isDigit || unit == '_'
  text.head?.any CodeUnit.isDigit &&
    rest.head?.all fun unit => [(':' : CodeUnit), '.', '-', 'e', 'E', 'x', 'b', 'o'].contains unit

/-- A plain scalar that begins with a letter or a digit stands for its text: it is no word for
something else, and no number or date. A comparison is in no word and no number. -/
def ReadsAsText (text : Text) : Prop :=
  (∃ sign ∈ text, sign = '<' ∨ sign = '=' ∨ sign = '>' ∨ sign = '!') ∨
    text ∉ words ∧ beginsNumber text = false

/-- The anchor and the tag before a scalar, with the blanks around them. -/
inductive AreProperties : Text → Prop
  | blanks {text : Text} (notEmpty : text ≠ []) (areBlank : ∀ unit ∈ text, unit.isSpaceOrTab = true) :
      AreProperties text
  | property {blanks word rest : Text} {sign : CodeUnit} (notEmpty : blanks ≠ [])
      (areBlank : ∀ unit ∈ blanks, unit.isSpaceOrTab = true) (isSign : sign = '&' ∨ sign = '!')
      (isWord : ∀ unit ∈ word, unit.isBlank = false) (more : AreProperties rest) :
      AreProperties (blanks ++ sign :: word ++ rest)

/-- What stands before an item of a list with a line for each item: a dash, and the properties of the
item. No dash on its own is in brackets. -/
def BehindDash (before : Text) : Prop :=
  ∃ front properties : Text, before = front ++ ('-' : CodeUnit) :: properties ∧
    (∀ unit ∈ front.getLast?, unit = 0x20 ∨ unit = 0x09 ∨ unit = 0x0A ∨ unit = 0x0D) ∧
      AreProperties properties

/-- A text that may be written without quotes in place of a plain scalar. In brackets it must have no
sign that ends it there. -/
structure PlainFits (before old text : Text) : Prop where
  /-- The old scalar is no block, which begins with a header. -/
  wasPlain : ∃ first ∈ old.head?, first ≠ '|' ∧ first ≠ '>'
  isPlain : IsPlain text
  readsAsText : ReadsAsText text
  stands : BehindDash before ∨ ∀ unit ∈ text, unit ∉ flowSigns

/-- A text fits in the place of a scalar of a style: what is before the scalar and what its source was
are of importance if there are no quotes around it. -/
def Fits (before old text : Text) : ScalarStyle → Prop
  | .doubleQuoted => True
  | .singleQuoted => text.OneLine ∧ text.Quotable
  | .bare => PlainFits before old text

/-- A source stands for a text in the place of a scalar of a style. -/
inductive Writes (before old : Text) : ScalarStyle → Text → Text → Prop
  | quoted {style : ScalarStyle} {source text : Text} (standsFor : StandsFor style source text) :
      Writes before old style source text
  | plain {text : Text} (fits : PlainFits before old text) : Writes before old .bare text text

/-- A scalar as a part of a tree. -/
structure Leaf where
  content : Content
  style : ScalarStyle
  span : Span
  deriving DecidableEq

/-- A scalar as a node. -/
def Leaf.node (leaf : Leaf) : Node := .scalar leaf.content leaf.style leaf.span

mutual

/-- The scalars of a tree that are in no key, in the order in which they stand. -/
def Node.leaves : Node → List Leaf
  | .scalar content style span => [⟨content, style, span⟩]
  | .sequence items => leavesOfItems items
  | .mapping entries => leavesOfEntries entries
  | .null => []
  | .alias => []

/-- The scalars of the items of a sequence. -/
def leavesOfItems : List Node → List Leaf
  | [] => []
  | item :: items => item.leaves ++ leavesOfItems items

/-- The scalars of the values of a mapping. -/
def leavesOfEntries : List (Node × Node) → List Leaf
  | [] => []
  | (_, value) :: entries => value.leaves ++ leavesOfEntries entries

end

mutual

/-- A tree with its scalars changed, those in keys in a way of their own. -/
def Node.mapScalars (inKeys elsewhere : Leaf → Leaf) : Node → Node
  | .scalar content style span => (elsewhere ⟨content, style, span⟩).node
  | .sequence items => .sequence (mapItemScalars inKeys elsewhere items)
  | .mapping entries => .mapping (mapEntryScalars inKeys elsewhere entries)
  | .null => .null
  | .alias => .alias

/-- The items of a sequence with their scalars changed. -/
def mapItemScalars (inKeys elsewhere : Leaf → Leaf) : List Node → List Node
  | [] => []
  | item :: items => item.mapScalars inKeys elsewhere :: mapItemScalars inKeys elsewhere items

/-- The entries of a mapping with their scalars changed. -/
def mapEntryScalars (inKeys elsewhere : Leaf → Leaf) : List (Node × Node) → List (Node × Node)
  | [] => []
  | (key, value) :: entries =>
    (key.mapScalars inKeys inKeys, value.mapScalars inKeys elsewhere) ::
      mapEntryScalars inKeys elsewhere entries

end

theorem leavesOfItems_eq (items : List Node) : leavesOfItems items = items.flatMap Node.leaves := by
  induction items with
  | nil => rfl
  | cons item items inductionHypothesis =>
    rw [leavesOfItems, inductionHypothesis, List.flatMap_cons]

theorem leavesOfEntries_eq (entries : List (Node × Node)) :
    leavesOfEntries entries = entries.flatMap fun entry => entry.2.leaves := by
  induction entries with
  | nil => rfl
  | cons entry entries inductionHypothesis =>
    rw [leavesOfEntries, inductionHypothesis, List.flatMap_cons]

theorem mapItemScalars_eq (inKeys elsewhere : Leaf → Leaf) (items : List Node) :
    mapItemScalars inKeys elsewhere items = items.map (Node.mapScalars inKeys elsewhere) := by
  induction items with
  | nil => rfl
  | cons item items inductionHypothesis =>
    rw [mapItemScalars, inductionHypothesis, List.map_cons]

theorem mapEntryScalars_eq (inKeys elsewhere : Leaf → Leaf) (entries : List (Node × Node)) :
    mapEntryScalars inKeys elsewhere entries = entries.map fun entry =>
      (entry.1.mapScalars inKeys inKeys, entry.2.mapScalars inKeys elsewhere) := by
  induction entries with
  | nil => rfl
  | cons entry entries inductionHypothesis =>
    rw [mapEntryScalars, inductionHypothesis, List.map_cons]

mutual

/-- The scalars of a changed tree are the changed scalars. -/
theorem Node.leaves_mapScalars (inKeys elsewhere : Leaf → Leaf) :
    ∀ node : Node, (node.mapScalars inKeys elsewhere).leaves = node.leaves.map elsewhere
  | .scalar _ _ _ => rfl
  | .sequence items => leaves_mapItemScalars inKeys elsewhere items
  | .mapping entries => leaves_mapEntryScalars inKeys elsewhere entries
  | .null => rfl
  | .alias => rfl

theorem leaves_mapItemScalars (inKeys elsewhere : Leaf → Leaf) : ∀ items : List Node,
    leavesOfItems (mapItemScalars inKeys elsewhere items) = (leavesOfItems items).map elsewhere
  | [] => rfl
  | item :: items => by
    rw [mapItemScalars, leavesOfItems, leavesOfItems, List.map_append,
      item.leaves_mapScalars inKeys elsewhere, leaves_mapItemScalars inKeys elsewhere items]

theorem leaves_mapEntryScalars (inKeys elsewhere : Leaf → Leaf) : ∀ entries : List (Node × Node),
    leavesOfEntries (mapEntryScalars inKeys elsewhere entries) =
      (leavesOfEntries entries).map elsewhere
  | [] => rfl
  | (_, value) :: entries => by
    rw [mapEntryScalars, leavesOfEntries, leavesOfEntries, List.map_append,
      value.leaves_mapScalars inKeys elsewhere, leaves_mapEntryScalars inKeys elsewhere entries]

end

mutual

/-- A tree that is changed twice is changed by the two changes one after the other. -/
theorem Node.mapScalars_mapScalars (inKeys elsewhere inKeys' elsewhere' : Leaf → Leaf) :
    ∀ node : Node, (node.mapScalars inKeys elsewhere).mapScalars inKeys' elsewhere' =
      node.mapScalars (inKeys' ∘ inKeys) (elsewhere' ∘ elsewhere)
  | .scalar _ _ _ => rfl
  | .sequence items =>
    congrArg Node.sequence (mapItemScalars_mapItemScalars inKeys elsewhere inKeys' elsewhere' items)
  | .mapping entries =>
    congrArg Node.mapping (mapEntryScalars_mapEntryScalars inKeys elsewhere inKeys' elsewhere' entries)
  | .null => rfl
  | .alias => rfl

theorem mapItemScalars_mapItemScalars (inKeys elsewhere inKeys' elsewhere' : Leaf → Leaf) :
    ∀ items : List Node,
      mapItemScalars inKeys' elsewhere' (mapItemScalars inKeys elsewhere items) =
        mapItemScalars (inKeys' ∘ inKeys) (elsewhere' ∘ elsewhere) items
  | [] => rfl
  | item :: items => by
    rw [mapItemScalars, mapItemScalars, mapItemScalars,
      item.mapScalars_mapScalars inKeys elsewhere inKeys' elsewhere',
      mapItemScalars_mapItemScalars inKeys elsewhere inKeys' elsewhere' items]

theorem mapEntryScalars_mapEntryScalars (inKeys elsewhere inKeys' elsewhere' : Leaf → Leaf) :
    ∀ entries : List (Node × Node),
      mapEntryScalars inKeys' elsewhere' (mapEntryScalars inKeys elsewhere entries) =
        mapEntryScalars (inKeys' ∘ inKeys) (elsewhere' ∘ elsewhere) entries
  | [] => rfl
  | (key, value) :: entries => by
    rw [mapEntryScalars, mapEntryScalars, mapEntryScalars,
      key.mapScalars_mapScalars inKeys inKeys inKeys' inKeys',
      value.mapScalars_mapScalars inKeys elsewhere inKeys' elsewhere',
      mapEntryScalars_mapEntryScalars inKeys elsewhere inKeys' elsewhere' entries]

end

mutual

theorem Node.mapScalars_id : ∀ node : Node, node.mapScalars id id = node
  | .scalar _ _ _ => rfl
  | .sequence items => congrArg Node.sequence (mapItemScalars_id items)
  | .mapping entries => congrArg Node.mapping (mapEntryScalars_id entries)
  | .null => rfl
  | .alias => rfl

theorem mapItemScalars_id : ∀ items : List Node, mapItemScalars id id items = items
  | [] => rfl
  | item :: items => by rw [mapItemScalars, item.mapScalars_id, mapItemScalars_id items]

theorem mapEntryScalars_id : ∀ entries : List (Node × Node), mapEntryScalars id id entries = entries
  | [] => rfl
  | (key, value) :: entries => by
    rw [mapEntryScalars, key.mapScalars_id, value.mapScalars_id, mapEntryScalars_id entries]

end

mutual

/-- A changed tree depends on what becomes of its scalars only. -/
theorem Node.mapScalars_congr {inKeys inKeys' elsewhere elsewhere' : Leaf → Leaf}
    (sameKeys : ∀ leaf, inKeys leaf = inKeys' leaf) : ∀ node : Node,
    (∀ leaf ∈ node.leaves, elsewhere leaf = elsewhere' leaf) →
    node.mapScalars inKeys elsewhere = node.mapScalars inKeys' elsewhere'
  | .scalar _ _ _, same => congrArg Leaf.node (same _ List.mem_cons_self)
  | .sequence items, same => congrArg Node.sequence (mapItemScalars_congr sameKeys items same)
  | .mapping entries, same => congrArg Node.mapping (mapEntryScalars_congr sameKeys entries same)
  | .null, _ => rfl
  | .alias, _ => rfl

theorem mapItemScalars_congr {inKeys inKeys' elsewhere elsewhere' : Leaf → Leaf}
    (sameKeys : ∀ leaf, inKeys leaf = inKeys' leaf) : ∀ items : List Node,
    (∀ leaf ∈ leavesOfItems items, elsewhere leaf = elsewhere' leaf) →
    mapItemScalars inKeys elsewhere items = mapItemScalars inKeys' elsewhere' items
  | [], _ => rfl
  | item :: items, same => by
    rw [leavesOfItems, List.forall_mem_append] at same
    rw [mapItemScalars, mapItemScalars, item.mapScalars_congr sameKeys same.1,
      mapItemScalars_congr sameKeys items same.2]

theorem mapEntryScalars_congr {inKeys inKeys' elsewhere elsewhere' : Leaf → Leaf}
    (sameKeys : ∀ leaf, inKeys leaf = inKeys' leaf) : ∀ entries : List (Node × Node),
    (∀ leaf ∈ leavesOfEntries entries, elsewhere leaf = elsewhere' leaf) →
    mapEntryScalars inKeys elsewhere entries = mapEntryScalars inKeys' elsewhere' entries
  | [], _ => rfl
  | (key, value) :: entries, same => by
    rw [leavesOfEntries, List.forall_mem_append] at same
    rw [mapEntryScalars, mapEntryScalars, value.mapScalars_congr sameKeys same.1,
      mapEntryScalars_congr sameKeys entries same.2, key.mapScalars_congr sameKeys
        fun leaf _ => sameKeys leaf]

end

/-- What is put in for the source of a scalar, and the text that it stands for. -/
structure Rewriting where
  replacement : Replacement
  text : Text

namespace Rewriting

/-- Where a span is after a rewriting: it moves if it is behind what is replaced. -/
def place (rewriting : Rewriting) (span : Span) : Span :=
  let old := rewriting.replacement.span
  let stop := old.start + rewriting.replacement.newText.length
  if old.stop ≤ span.start then ⟨stop + (span.start - old.stop), stop + (span.stop - old.stop)⟩
  else span

/-- A scalar that is not written anew. -/
def move (rewriting : Rewriting) (leaf : Leaf) : Leaf :=
  { leaf with span := rewriting.place leaf.span }

/-- A scalar that may be the one that is written anew. -/
def renew (rewriting : Rewriting) (leaf : Leaf) : Leaf :=
  let old := rewriting.replacement.span
  if leaf.span = old then
    ⟨.text rewriting.text, leaf.style, ⟨old.start, old.start + rewriting.replacement.newText.length⟩⟩
  else rewriting.move leaf

/-- A tree with a scalar written anew. -/
def apply (rewriting : Rewriting) (root : Node) : Node :=
  root.mapScalars rewriting.move rewriting.renew

/-- A rewriting puts a source that stands for its text in the place of a scalar with a text. -/
structure Renews (rewriting : Rewriting) (content : Text) (root : Node) (leaf : Leaf) : Prop where
  member : leaf ∈ root.leaves
  isText : ∃ text, leaf.content = .text text ∧ text ≠ []
  sameSpan : rewriting.replacement.span = leaf.span
  writes : Writes (content.take leaf.span.start) (leaf.span.text content) leaf.style
    rewriting.replacement.newText rewriting.text

end Rewriting

/-- What the rules of YAML say of a reader, as far as scalars are written anew. -/
structure RereadsScalars (parse : Text → Option Node) : Prop where
  /-- The scalars stand one behind the other. -/
  inOrder : ∀ content root, parse content = some root →
    Span.Row 0 content.length 0 (root.leaves.map Leaf.span)
  /-- Something is written where a scalar stands for a text that is not empty. -/
  proper : ∀ content root, parse content = some root → ∀ leaf ∈ root.leaves, ∀ text,
    leaf.content = .text text → text ≠ [] → leaf.span.start < leaf.span.stop
  /-- A source that stands for a text in the place of a scalar is read as that text. -/
  renewed : ∀ content root, parse content = some root → ∀ (rewriting : Rewriting) (leaf : Leaf),
    rewriting.Renews content root leaf →
    parse (rewriting.replacement.putInto content) = some (rewriting.apply root)

namespace Rewriting

/-- A scalar before what is written anew stays as it is. -/
theorem renew_eq_self {rewriting : Rewriting} {leaf : Leaf}
    (proper : leaf.span.start < leaf.span.stop)
    (before : leaf.span.stop ≤ rewriting.replacement.span.start)
    (forward : rewriting.replacement.span.start ≤ rewriting.replacement.span.stop) :
    rewriting.renew leaf = leaf := by
  have differs : leaf.span ≠ rewriting.replacement.span := by
    intro same
    rw [same] at before proper
    omega
  rw [renew, if_neg differs, move, place, if_neg (by omega)]

theorem foldr_renew_eq_self {length : Nat} {rewritings : List Rewriting} {leaf : Leaf}
    (proper : leaf.span.start < leaf.span.stop)
    (row : Span.Row 0 length leaf.span.stop
      (rewritings.map fun rewriting => rewriting.replacement.span)) :
    rewritings.foldr renew leaf = leaf := by
  induction rewritings with
  | nil => rfl
  | cons rewriting rest inductionHypothesis =>
    obtain ⟨before, forward, restRow⟩ := row
    dsimp only at before forward restRow
    rw [List.foldr_cons, inductionHypothesis (restRow.of_le (by omega))]
    exact renew_eq_self proper (by omega) forward

/-- The scalars of a tree with several of them written anew, from the last to the first. -/
theorem leaves_foldr_apply (rewritings : List Rewriting) (root : Node) :
    (rewritings.foldr apply root).leaves =
      root.leaves.map fun leaf => rewritings.foldr renew leaf := by
  induction rewritings with
  | nil => exact (List.map_id _).symm
  | cons rewriting rest inductionHypothesis =>
    rw [List.foldr_cons, apply, Node.leaves_mapScalars, inductionHypothesis, List.map_map]
    rfl

end Rewriting

/-- What is put in behind a place leaves all before it as it was. -/
theorem take_foldr_putInto {content : Text} {place : Nat} {replacements : List Replacement}
    (row : Span.Row 0 content.length place (replacements.map Replacement.span)) :
    (replacements.foldr Replacement.putInto content).take place = content.take place := by
  rw [Replacement.foldr_putInto content place replacements row, List.take_append_of_le_length,
    List.take_of_length_le]
  · rw [List.length_take]
    exact Nat.min_le_left _ _
  · rw [List.length_take, Nat.min_eq_left row.le]

/-- A reader reads what several scalars of a document are written anew to: the run of single
rewritings from the last to the first. -/
theorem RereadsScalars.run {parse : Text → Option Node} (rereads : RereadsScalars parse)
    {content : Text} {root : Node} (reads : parse content = some root) {start : Nat}
    {rewritings : List Rewriting}
    (row : Span.Row 0 content.length start
      (rewritings.map fun rewriting => rewriting.replacement.span))
    (renews : ∀ rewriting ∈ rewritings, ∃ leaf, rewriting.Renews content root leaf) :
    parse ((rewritings.map Rewriting.replacement).foldr Replacement.putInto content) =
      some (rewritings.foldr Rewriting.apply root) := by
  induction rewritings generalizing start with
  | nil => exact reads
  | cons rewriting rest inductionHypothesis =>
    obtain ⟨⟨leaf, member, ⟨text, isText, notEmpty⟩, sameSpan, writes⟩, restRenews⟩ :=
      List.forall_mem_cons.mp renews
    obtain ⟨-, -, restRow⟩ := row
    dsimp only at restRow
    rw [sameSpan] at restRow
    have proper := rereads.proper content root reads leaf member text isText notEmpty
    have readsRest := inductionHypothesis restRow restRenews
    have placedRest : Span.Row 0 content.length leaf.span.stop
        ((rest.map Rewriting.replacement).map Replacement.span) := by
      rwa [List.map_map]
    have sameBefore := take_foldr_putInto placedRest
    rw [List.map_cons, List.foldr_cons, List.foldr_cons]
    refine rereads.renewed _ _ readsRest rewriting leaf ⟨?_, ⟨text, isText, notEmpty⟩, sameSpan, ?_⟩
    · -- what is written anew stands behind the scalar, so that this one is as it was
      rw [Rewriting.leaves_foldr_apply]
      exact List.mem_map.mpr ⟨leaf, member, Rewriting.foldr_renew_eq_self proper restRow⟩
    · generalize (rest.map Rewriting.replacement).foldr Replacement.putInto content = fixed
        at sameBefore
      have sameTake : fixed.take leaf.span.start = content.take leaf.span.start := by
        have shorter := congrArg (List.take leaf.span.start) sameBefore
        rwa [List.take_take, List.take_take, Nat.min_eq_left proper.le] at shorter
      have sameText : leaf.span.text fixed = leaf.span.text content := by
        rw [Span.text, Span.text, ← Text.slice_take fixed _ _ _ (Nat.le_refl _), sameBefore,
          Text.slice_take content _ _ _ (Nat.le_refl _)]
      rwa [sameTake, sameText]

end SourceLint.Yaml
