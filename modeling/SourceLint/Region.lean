/-
Regions: the cut of a text into stretches where a check is enabled or not. A range directive holds
from its marker up to the next one; a next-line directive holds for the line after its own and wins
over the range directives, and of several for one line the last wins.

The ranges and the overridden lines are collected from the directives and then put together by a
sweep over the text, from cut to cut, with a cursor in each of the two lists. Pieces that have one
source and touch are joined, and an empty line that is overridden has a region of its own.
-/
import SourceLint.Directive
import SourceLint.Lines

namespace SourceLint

/-- A stretch of the text in which a check is enabled or not. -/
structure Region where
  span : Span
  enabled : Bool
  deriving DecidableEq, Repr

namespace Region

/-! ### Ranges and overrides -/

/-- What is known after some of the directives: the ranges up to the last range directive, where the
range that is still open begins and what it says, and the lines that are overridden. -/
structure Collector where
  start : Nat
  enabled : Bool
  ranges : List Region
  overrides : List Region

/-- An override behind others. It replaces the last one if they are for the same line. -/
def putOverride (overrides : List Region) (target : Region) : List Region :=
  match overrides.getLast? with
  | some last =>
    if last.span.start = target.span.start then overrides.dropLast ++ [target]
    else overrides ++ [target]
  | none => overrides ++ [target]

/-- A range directive ends the open range and begins another; a next-line directive overrides the
line after its own, if there is one. -/
def Collector.take (lines : Lines) (state : Collector) (directive : Directive) :
    Except LintError Collector :=
  if directive.nextLine then do
    let number ← lines.lineAt directive.index
    match lines.all[number + 1]? with
    | some line =>
      return { state with
        overrides := putOverride state.overrides ⟨line.span, directive.enables⟩ }
    | none => return state
  else
    return { state with
      start := directive.index
      enabled := directive.enables
      ranges := state.ranges ++ [⟨⟨state.start, directive.index⟩, state.enabled⟩] }

/-- The ranges without the empty ones, of which there is always one, and the overrides. -/
def collect (lines : Lines) (directives : List Directive) :
    Except LintError (List Region × List Region) := do
  let state ← directives.foldlM (Collector.take lines) ⟨0, true, [], []⟩
  let length := lines.content.length
  let ranges := state.ranges ++ [⟨⟨state.start, length⟩, state.enabled⟩]
  match ranges.filter fun range => range.span.start < range.span.stop with
  | [] => return ([⟨⟨0, length⟩, state.enabled⟩], state.overrides)
  | proper => return (proper, state.overrides)

/-! ### The sweep over both -/

/-- A position among ascending ones, once. -/
def insertCut (position : Nat) : List Nat → List Nat
  | [] => [position]
  | cut :: later =>
    if position < cut then position :: cut :: later
    else if position = cut then cut :: later
    else cut :: insertCut position later

/-- Where the sweep stops: the two ends of the text, the starts of the ranges, and both ends of each
override, in ascending order. -/
def cuts (ranges overrides : List Region) (length : Nat) : List Nat :=
  (0 :: length :: (ranges.map (·.span.start) ++
    overrides.flatMap fun override => [override.span.start, override.span.stop])).foldr insertCut []

/-- A stretch with what it comes from: the number of a range, or the number of an override counted
downwards from minus one. -/
structure Piece where
  region : Region
  source : Int

/-- The source of the pieces of an override. -/
def overrideSource (index : Nat) : Int := -(index + 1)

/-- The sweep at a position: the pieces so far, the last one first, and the numbers of the first
range and of the first override that may still count. -/
structure Sweep where
  pieces : List Piece
  range : Nat
  override : Nat

namespace Sweep

/-- Passes the overrides that are done at a position. An empty one there has a piece of its own. -/
def pass (position : Nat) : List Region → Sweep → Sweep
  | [], sweep => sweep
  | override :: later, sweep =>
    if override.span.start < override.span.stop ∧ override.span.stop ≤ position then
      pass position later { sweep with override := sweep.override + 1 }
    else if override.span.start = position ∧ override.span.stop = position then
      pass position later { sweep with
        pieces := ⟨override, overrideSource sweep.override⟩ :: sweep.pieces
        override := sweep.override + 1 }
    else sweep

/-- The sweep with its number of overrides advanced to a position. -/
def advance (overrides : List Region) (position : Nat) (sweep : Sweep) : Sweep :=
  pass position (overrides.drop sweep.override) sweep

/-- The first of the ranges left that stops beyond a position, with its number. There is no check
that any range is left. -/
def reach (position : Nat) : List Region → Nat → Except LintError (Nat × Region)
  | [], _ => .error .rangesExhausted
  | range :: later, number =>
    if range.span.stop ≤ position then reach position later (number + 1) else .ok (number, range)

/-- A piece put behind others. It is joined to the last one if they have one source and touch. -/
def join (piece : Piece) : List Piece → List Piece
  | [] => [piece]
  | last :: earlier =>
    if last.source = piece.source ∧ last.region.span.stop = piece.region.span.start then
      { last with region.span.stop := piece.region.span.stop } :: earlier
    else piece :: last :: earlier

/-- The piece between two cuts, from an override that holds it or else from a range. -/
def piece (start stop : Nat) (override : Option Region) (overrideNumber : Nat) (range : Region)
    (rangeNumber : Nat) : Piece :=
  match override with
  | some override =>
    if override.span.start ≤ start ∧ stop ≤ override.span.stop then
      ⟨⟨⟨start, stop⟩, override.enabled⟩, overrideSource overrideNumber⟩
    else ⟨⟨⟨start, stop⟩, range.enabled⟩, rangeNumber⟩
  | none => ⟨⟨⟨start, stop⟩, range.enabled⟩, rangeNumber⟩

/-- The sweep from one cut to the next. -/
def turn (ranges overrides : List Region) (start stop : Nat) (sweep : Sweep) :
    Except LintError Sweep := do
  let passed := sweep.advance overrides start
  let (number, range) ← reach start (ranges.drop passed.range) passed.range
  let next := piece start stop overrides[passed.override]? passed.override range number
  return ⟨join next passed.pieces, number, passed.override⟩

/-- The sweep over the stretches between neighbouring cuts. -/
def run (ranges overrides : List Region) : List Nat → Sweep → Except LintError Sweep
  | start :: stop :: later, sweep => do
    run ranges overrides (stop :: later) (← turn ranges overrides start stop sweep)
  | _, sweep => return sweep

end Sweep

/-- The ranges with the overrides in their places. -/
def override (ranges overrides : List Region) (length : Nat) : Except LintError (List Region) := do
  let swept ← Sweep.run ranges overrides (cuts ranges overrides length) ⟨[], 0, 0⟩
  match (swept.advance overrides length).pieces with
  | [] => return ranges
  | pieces => return pieces.reverse.map Piece.region

/-- The regions of a text for a check, unless the look-up of a line or of a range fails. -/
def boundaries (lines : Lines) (check : Text) : Except LintError (List Region) := do
  let (ranges, overrides) ← collect lines (Directive.find lines.content check)
  override ranges overrides lines.content.length

/-- The regions of a text for a check. The failure of `boundaries` is left out: no text brings it
about. -/
def ofLines (lines : Lines) (check : Text) : List Region :=
  match boundaries lines check with
  | .ok regions => regions
  | .error _ => []

/-! ### Warnings and regions -/

/-- A region lies before a span without touching it. A span of width zero is touched by the regions
that end or begin at it, any other only by those that share a unit with it. -/
def endsBefore (region : Region) (span : Span) : Bool :=
  if span.start = span.stop then region.span.stop < span.start
  else region.span.stop ≤ span.start

/-- A region lies after a span without touching it. -/
def startsAfter (region : Region) (span : Span) : Bool :=
  if span.start = span.stop then region.span.start > span.stop
  else region.span.start ≥ span.stop

/-- The number of the first region, from `low` up to `high`, that does not end before a span, found
by halving. -/
def firstReaching (regions : Array Region) (span : Span) (low high : Nat) : Nat :=
  if low < high then
    let middle := (low + high) / 2
    match regions[middle]? with
    | some region =>
      if region.endsBefore span then firstReaching regions span (middle + 1) high
      else firstReaching regions span low middle
    | none => firstReaching regions span low middle
  else low
termination_by high - low

/-- Whether a span counts: some region that it touches is enabled. -/
def isEnabled (regions : List Region) (span : Span) : Bool :=
  let first := firstReaching regions.toArray span 0 regions.length
  ((regions.drop first).takeWhile fun region => !region.startsAfter span).any Region.enabled

end Region

end SourceLint
