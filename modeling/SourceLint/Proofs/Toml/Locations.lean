/-
This file proves that the layout scanner and a reader of TOML agree on what stands where. The scanner
has a location for exactly the paths that a pair of the document gives a value; it is the place of the
source of that value, and what the reader takes the source for is what the document has at the path.
-/
import SourceLint.Proofs.Toml.Paths
import SourceLint.Proofs.Toml.Reader
import SourceLint.Proofs.Toml.Standing
import SourceLint.Proofs.Toml.Writing

namespace SourceLint.Toml

variable {dialect : Dialect} {parse : Text → Option (Table dialect.Scalar)}

/-! ### Lookups -/

theorem mem_of_lookup_eq_some {Key Value : Type} [BEq Key] [LawfulBEq Key]
    {entries : List (Key × Value)} {key : Key} {value : Value}
    (found : entries.lookup key = some value) : (key, value) ∈ entries := by
  obtain ⟨front, back, rfl, -⟩ := List.lookup_eq_some_iff.mp found
  simp

/-- What the scanner finds is a value that the scanned path is given. -/
theorem exists_location_of_valueLocation? {document : Written.Document dialect} {path : List Text}
    {span : Span} (found : (Layout.ofText document.source).valueLocation? path = some span) :
    ∃ location ∈ document.locations Written.Key.scanned [] 0,
      location.path = path ∧ location.span = span := by
  rw [valueLocation?_ofText] at found
  obtain ⟨location, member, same⟩ := List.mem_map.mp (mem_of_lookup_eq_some found)
  exact ⟨location, member, congrArg Prod.fst same, congrArg Prod.snd same⟩

/-- What the scanner finds is placed in the text. -/
theorem placed_of_valueLocation? {document : Written.Document dialect} {path : List Text} {span : Span}
    (found : (Layout.ofText document.source).valueLocation? path = some span) :
    span.PlacedIn document.source := by
  obtain ⟨location, member, -, rfl⟩ := exists_location_of_valueLocation? found
  exact (document.standsIn _ _ _ location member).placed.1

/-- A path has a location if and only if it is given a value. -/
theorem isSome_valueLocation?_iff {document : Written.Document dialect} (plain : document.KeysArePlain)
    (path : List Text) : ((Layout.ofText document.source).valueLocation? path).isSome ↔
      ∃ location ∈ document.locations Written.Key.path [] 0, location.path = path := by
  rw [valueLocation?_ofText, List.lookup_isSome_iff,
    document.locations_congr Written.Key.scanned_eq plain]
  simp only [List.mem_map, exists_exists_and_eq_and, beq_iff_eq, Written.Location.place,
    eq_comm (a := path)]

/-! ### Readers -/

/-- A reader has the table of a document. -/
theorem ReadsToml.table?_eq (reads : ReadsToml dialect parse) {document : Written.Document dialect}
    {table : Table dialect.Scalar} (parses : parse document.source = some table) :
    document.table? = some table := by
  obtain ⟨further, same, isTable⟩ := reads.sound _ _ parses
  rw [← isTable, Written.Document.table?_unique same]

/-- A reader takes a text for a value: it reads a pair of a key and the text so. -/
def TakesFor (parse : Text → Option (Table dialect.Scalar)) (text : Text)
    (value : Value dialect.Scalar) : Prop :=
  parse ("value = " ++ text) = some [(("value" : Text), value)]

/-- A reader takes the source of a value for what the value stands for. -/
theorem ReadsToml.takesFor (reads : ReadsToml dialect parse) {value : Written.Value dialect}
    {draft : Draft.Value dialect.Scalar} (isDraft : value.draft? = some draft) :
    TakesFor parse value.source draft.plain := by
  have isTable : (Written.Document.last (.ofItem (.pair (.ofValue
      (.ofName ⟨"value", by decide, by decide⟩) value)))).table? =
        some [(("value" : Text), draft.plain)] := by
    rw [Written.Document.table?, Written.Document.next?, Written.Line.ofItem, Written.Line.next?]
    change Option.map _ (Option.map _ (Written.Pair.define? _ _)) = _
    rw [Written.Pair.ofValue, Written.Pair.define?, isDraft]
    rfl
  have accepted := reads.accepts _ _ isTable
  rw [TakesFor, ← accepted]
  refine congrArg parse ?_
  simp only [Written.Document.source, Written.Line.source, Written.Line.ofItem, Written.itemSource,
    Written.Item.source, Written.Pair.ofValue, Written.Pair.source, commentSource, Blanks.nothing,
    List.append_nil, List.nil_append]
  rfl

/-- The scanner has a location for a path if and only if some pair of the document gives the path a
value, at the start of a line or in an inline table. The location is then that of the source of such a
value, and what the reader takes the source for is what the document has at the path, unless the path
goes through an array. -/
theorem valueLocation?_of_readsToml (reads : ReadsToml dialect parse)
    (document : Written.Document dialect) (table : Table dialect.Scalar)
    (accepted : parse document.source = some table) (plain : document.KeysArePlain)
    (path : List Text) (outside : ¬(Value.table table).PassesArray path) :
    (((Layout.ofText document.source).valueLocation? path).isSome ↔
      ∃ location ∈ document.locations Written.Key.path [] 0, location.path = path) ∧
    ∀ span, (Layout.ofText document.source).valueLocation? path = some span →
      span.PlacedIn document.source ∧
      ∃ location ∈ document.locations Written.Key.path [] 0, location.path = path ∧
        location.span = span ∧
        document.source.slice span.start span.stop = location.value.source ∧
        ∃ value, (Value.table table).at? path = some value ∧
          TakesFor parse (document.source.slice span.start span.stop) value := by
  refine ⟨isSome_valueLocation?_iff plain path, fun span found => ⟨placed_of_valueLocation? found, ?_⟩⟩
  obtain ⟨location, member, rfl, rfl⟩ := exists_location_of_valueLocation? found
  rw [document.locations_congr Written.Key.scanned_eq plain] at member
  have isSource := (document.standsIn _ _ _ location member).placed.2
  obtain ⟨given, isGiven, there⟩ :=
    Written.Document.at?_of_mem_locations (reads.table?_eq accepted) member outside
  refine ⟨location, member, rfl, rfl, isSource, given.plain, there, ?_⟩
  rw [isSource]
  exact reads.takesFor isGiven

namespace Written.BareName

/-- The name of the project. -/
def project : BareName := ⟨"project", by decide, by decide⟩

/-- The name of its license. -/
def license : BareName := ⟨"license", by decide, by decide⟩

/-- The name of the text of a license. -/
def text : BareName := ⟨"text", by decide, by decide⟩

end Written.BareName

/-- A project file with a license in an inline table. -/
def inlineLicense : Written.Document truthValues :=
  .ofItems [.ofHeader false (.ofName .project),
    .pair (.ofValue (.ofName .license) (.ofPair (.ofValue (.ofName .text)
      (.ofText "MIT" (by decide)))))]

example : inlineLicense.source = "[project]\nlicense = \x7b text = \"MIT\" \x7d\n" := by decide +kernel

/-- The location of the text of the license. -/
theorem valueLocation?_of_readsToml_inlineLicense :
    let parse := readerOf truthValues
    let table : Table Bool :=
      [("project", .table [("license", .table [("text", .text "MIT")])])]
    let path : List Text := ["project", "license", "text"]
    ReadsToml truthValues parse ∧ parse inlineLicense.source = some table ∧
      inlineLicense.KeysArePlain ∧ ¬(Value.table table).PassesArray path ∧
      (((Layout.ofText inlineLicense.source).valueLocation? path).isSome ↔
        ∃ location ∈ inlineLicense.locations Written.Key.path [] 0, location.path = path) ∧
      ∀ span, (Layout.ofText inlineLicense.source).valueLocation? path = some span →
        span.PlacedIn inlineLicense.source ∧
        ∃ location ∈ inlineLicense.locations Written.Key.path [] 0, location.path = path ∧
          location.span = span ∧
          inlineLicense.source.slice span.start span.stop = location.value.source ∧
          ∃ value, (Value.table table).at? path = some value ∧
            TakesFor parse (inlineLicense.source.slice span.start span.stop) value := by
  intro parse table path
  have reads : ReadsToml truthValues parse := readsToml_readerOf truthValues
  have accepted : parse inlineLicense.source = some table := (readerOf_source _).trans rfl
  have plain : inlineLicense.KeysArePlain := ⟨trivial, ⟨trivial, ⟨trivial, trivial⟩, trivial⟩, trivial⟩
  have outside : ¬(Value.table table).PassesArray path := by
    rintro ⟨front, key, rest, items, splits, there⟩
    change [("project" : Text), "license", "text"] = _ at splits
    obtain _ | ⟨first, _ | ⟨second, _ | ⟨third, front⟩⟩⟩ := front
    · cases there
    · cases splits
      cases there
    · cases splits
      cases there
    · simp at splits
  exact ⟨reads, accepted, plain, outside,
    valueLocation?_of_readsToml reads inlineLicense table accepted plain path outside⟩

end SourceLint.Toml
