import Cadence.Row
import Cadence.Sample

/-!
The pacer takes samples at a steady cadence. The first sample starts the clock and is due at once; each
sample that is taken makes the next one due exactly one step later than itself was due. So after a gap
every sample is taken until the schedule has caught up with the clock, and a sample before the first one
is never due.
-/

namespace Cadence

/-- The state of the cadence. -/
structure Pacer where
  /-- The time from one due sample to the next. -/
  step : Span
  /-- When the first sample was. -/
  start : Option Timestamp
  /-- When the next sample is due, counted from the first one. -/
  due : Span
deriving DecidableEq

/-- What becomes of a sample. -/
inductive Verdict
  /-- It was due. -/
  | taken (row : Row)
  /-- It was not due. -/
  | held
  /-- It was due, but the one after it would be due beyond the range of spans. -/
  | overflow
deriving DecidableEq

namespace Pacer

def new (step : Span) : Pacer :=
  ⟨step, none, Span.zero⟩

def defaultMinutes : Nat := 10

/-- The step where none is asked for. -/
def defaultStep : Span :=
  ⟨defaultMinutes * 60 * nanosecondsPerSecond, by decide, by decide⟩

/-- Offers a sample. The first one starts the clock, before the sum of the schedule is looked at. -/
def offer (pacer : Pacer) (sample : Sample) : Verdict × Pacer :=
  let start := pacer.start.getD sample.time
  let elapsed := sample.time.since start
  if elapsed < pacer.due then (.held, { pacer with start := some start })
  else match pacer.due.add? pacer.step with
    | none => (.overflow, { pacer with start := some start })
    | some due => (.taken ⟨sample.stamp, elapsed, sample.height⟩, { pacer with start := some start, due })

end Pacer

end Cadence
