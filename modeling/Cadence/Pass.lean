import Cadence.Pacer

/-!
A single pass over the lines of a log. `Pass.next` goes on to the next row that is taken, or to the
first failure, after which the pass is over; lines count from 1, those that give no row included.
`rowsOf` is the whole pass at once.
-/

namespace Cadence

/-- What reading gives for a line: its text, or the error that was met. -/
abbrev LineRead := Except IoError Text

/-- What a pass gives: a row, or the failure that ends it. -/
abbrev RowRead := Except Failure Row

/-- A pass under way. -/
structure Pass where
  pacer : Pacer
  /-- The log, as failures name it. -/
  log : Path
  /-- The lines to come. -/
  lines : List LineRead
  /-- The number of lines behind. -/
  behind : Nat
  /-- Nothing more will come. -/
  ended : Bool

namespace Pass

def new (pacer : Pacer) (log : Path) (lines : List LineRead) : Pass :=
  ⟨pacer, log, lines, 0, false⟩

/-- Goes on through the lines to the next row or failure. -/
def advance (log : Path) (pacer : Pacer) (behind : Nat) : List LineRead → Option RowRead × Pass
  | [] => (none, ⟨pacer, log, [], behind, true⟩)
  | .error cause :: rest => (some (.error (.io log cause)), ⟨pacer, log, rest, behind + 1, true⟩)
  | .ok text :: rest =>
    match Sample.ofLine (behind + 1) text with
    | .error failure => (some (.error failure), ⟨pacer, log, rest, behind + 1, true⟩)
    | .ok none => advance log pacer (behind + 1) rest
    | .ok (some sample) =>
      match pacer.offer sample with
      | (.taken row, after) => (some (.ok row), ⟨after, log, rest, behind + 1, false⟩)
      | (.held, after) => advance log after (behind + 1) rest
      | (.overflow, after) => (some (.error .overflow), ⟨after, log, rest, behind + 1, true⟩)

/-- The next row or failure, and the pass after it. -/
def next (pass : Pass) : Option RowRead × Pass :=
  if pass.ended then (none, pass) else advance pass.log pass.pacer pass.behind pass.lines

/-- All rows from here on, up to the first failure. -/
def rowsOf (log : Path) (pacer : Pacer) (behind : Nat) : List LineRead → List RowRead
  | [] => []
  | .error cause :: _ => [.error (.io log cause)]
  | .ok text :: rest =>
    match Sample.ofLine (behind + 1) text with
    | .error failure => [.error failure]
    | .ok none => rowsOf log pacer (behind + 1) rest
    | .ok (some sample) =>
      match pacer.offer sample with
      | (.taken row, after) => .ok row :: rowsOf log after (behind + 1) rest
      | (.held, after) => rowsOf log after (behind + 1) rest
      | (.overflow, _) => [.error .overflow]

end Pass

end Cadence
