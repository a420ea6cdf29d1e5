/-
The check of an owners file. Some files need a line that names their owners: the line may have to
name no others, and to come after the lines of other files. A line is a file pattern and at least
one owner, with blanks between them; a number sign ends it. Lines that are missing are added at the
end of the file.
-/
import SourceLint.Linter
import SourceLint.Text.Blank

namespace SourceLint.Codeowners

/-- The name of the check, which directives use. -/
def checkName : Text := "verify-codeowners"

/-! ### Lines -/

/-- An owner on a line: its name, its place, and its place with the blanks before it. -/
structure Owner where
  name : Text
  span : Span
  spanWithBlanks : Span
  deriving DecidableEq, Repr

/-- A line that gives a file pattern its owners. -/
structure Assignment where
  file : Text
  fileSpan : Span
  owners : List Owner
  deriving DecidableEq, Repr

/-- The length of the word that a text begins with. A backslash takes the unit after it into the
word, unless that is a line feed. -/
def wordLength : Text → Nat
  | [] => 0
  | [unit] => if unit = '\\' || unit = '#' || unit.isBlank then 0 else 1
  | unit :: next :: rest =>
    if unit = '\\' then if next = 0x0A then 0 else 2 + wordLength rest
    else if unit = '#' || unit.isBlank then 0
    else 1 + wordLength (next :: rest)

/-- The owners at the start of a text that begins at a position: each a word after blanks. -/
def ownersFrom : Nat → Nat → Text → List Owner
  | 0, _, _ => []
  | fuel + 1, position, text =>
    let blanks := (text.takeWhile CodeUnit.isBlank).length
    let word := text.drop blanks
    let length := wordLength word
    if blanks = 0 || length = 0 then []
    else
      let start := position + blanks
      let stop := start + length
      ⟨word.take length, ⟨start, stop⟩, ⟨position, stop⟩⟩ ::
        ownersFrom fuel stop (word.drop length)

/-- The assignment on a line that begins at a position, if there is one. -/
def Assignment.ofLine? (line : Text) (position : Nat) : Option Assignment :=
  let length := wordLength line
  let stop := position + length
  let owners := ownersFrom line.length stop (line.drop length)
  if length = 0 || owners.isEmpty then none
  else some ⟨line.take length, ⟨position, stop⟩, owners⟩

/-! ### Required lines -/

/-- An owner that a file needs: always the same one, or a team of the project. -/
inductive OwnerTemplate where
  | fixed (owner : Text)
  | team (category : Text)
  deriving DecidableEq, Repr

/-- The name of an owner in a project. -/
def OwnerTemplate.name (project : Text) : OwnerTemplate → Text
  | fixed owner => owner
  | team category => "@rapidsai/" ++ project ++ "-" ++ category ++ "-codeowners"

/-- A line that an owners file needs. -/
structure Requirement where
  file : Text
  owners : List OwnerTemplate
  /-- The line may name other owners too. -/
  allowsExtra : Bool := false
  /-- The files whose lines come earlier. -/
  after : List Text := []
  deriving DecidableEq, Repr

/-- The names of the owners that a line needs in a project. -/
def Requirement.ownerNames (project : Text) (requirement : Requirement) : List Text :=
  requirement.owners.map (OwnerTemplate.name project)

/-- The line as it is written into an owners file. -/
def Requirement.line (project : Text) (requirement : Requirement) : Text :=
  requirement.file ++ " " ++ Text.join " " (requirement.ownerNames project) ++ "\n"

/-- The lines that owners files need when nothing else is said. -/
def standardRequirements : List Requirement :=
  [{ file := "CMakeLists.txt", owners := [.team "cmake"] },
    { file := "pyproject.toml", owners := [.fixed "@rapidsai/ci-codeowners"], allowsExtra := true,
      after := ["CMakeLists.txt"] }]

/-! ### Warnings -/

/-- A line that a requirement is about, by the place of its file pattern. -/
structure Found where
  requirement : Requirement
  span : Span
  deriving DecidableEq, Repr

/-- The first requirement that is about the file of an assignment. -/
def requirementFor? (requirements : List Requirement) (assignment : Assignment) :
    Option Requirement :=
  requirements.find? fun requirement => requirement.file = assignment.file

/-- The replacements that give an assignment the owners that it needs: other owners are taken out
where they are not allowed, and missing ones are added after the last. -/
def ownerReplacements (project : Text) (requirement : Requirement) (assignment : Assignment) :
    List Replacement :=
  let needed := requirement.ownerNames project
  let extra :=
    if requirement.allowsExtra then []
    else assignment.owners.filter fun owner => !needed.contains owner.name
  let missing := needed.filter fun name => !(assignment.owners.map Owner.name).contains name
  let removals := extra.map fun owner => (⟨owner.spanWithBlanks, []⟩ : Replacement)
  match assignment.owners.getLast? with
  | none => removals
  | some last =>
    if missing.isEmpty then removals
    else removals ++ [⟨.point last.span.stop, missing.flatMap fun name => " " ++ name⟩]

/-- The warning on an assignment whose owners are not as required. -/
def ownersWarning? (project : Text) (requirements : List Requirement) (assignment : Assignment) :
    Option Warning := do
  let requirement ← requirementFor? requirements assignment
  let replacements := ownerReplacements project requirement assignment
  if replacements.isEmpty then none
  else
    return ⟨assignment.fileSpan, "file '" ++ assignment.file ++ "' has incorrect owners",
      replacements, []⟩

/-- The warning on a line that comes before a line that should be earlier. -/
def orderWarning? (found : List Found) (line : Found) (earlier : Text) : Option Warning :=
  let later := found.filter fun other =>
    other.requirement.file = earlier && other.span.start > line.span.start
  if later.isEmpty then none
  else
    some ⟨line.span,
      "file '" ++ line.requirement.file ++ "' should come after '" ++ earlier ++ "'", [],
      later.map fun other => ⟨other.span, "file '" ++ earlier ++ "' is here"⟩⟩

/-- The warnings on the order of the required lines. -/
def orderWarnings (found : List Found) : List Warning :=
  found.flatMap fun line => line.requirement.after.filterMap (orderWarning? found line)

/-- The warning that required lines are missing, with the text that adds them. -/
def missingWarning? (project : Text) (requirements : List Requirement) (content : Text)
    (found : List Found) : Option Warning :=
  let missing := requirements.filter fun requirement =>
    !(found.any fun line => line.requirement.file = requirement.file)
  if missing.isEmpty then none
  else
    let newText := missing.flatMap (Requirement.line project)
    let gap : Text := if !content.isEmpty && !Text.endsWith content "\n" then "\n" else ""
    some ⟨.point 0, "missing required codeowners", [⟨.point content.length, gap ++ newText⟩], []⟩

/-- The assignments in a text, in order. -/
def assignments (lines : Lines) : List Assignment :=
  lines.all.filterMap fun line => Assignment.ofLine? line.text line.start

/-- The warnings on an owners file. -/
def check (project : Text) (requirements : List Requirement) (source : Source) : List Warning :=
  let assignments := assignments source.lines
  let found := assignments.filterMap fun assignment =>
    (requirementFor? requirements assignment).map fun requirement =>
      (⟨requirement, assignment.fileSpan⟩ : Found)
  assignments.filterMap (ownersWarning? project requirements) ++ orderWarnings found ++
    (missingWarning? project requirements source.content found).toList

end SourceLint.Codeowners
