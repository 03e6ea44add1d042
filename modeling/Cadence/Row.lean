import Cadence.Failure
import Cadence.Time.Span

/-!
Rows of the table: a sample that was taken, with the time since the first one. The time is written as
whole seconds or as a duration `H:MM:SS`, from a day on with the days before it. A negative duration
borrows a whole day, so that the clock part is never negative: five minutes back is
`-1 day, 23:55:00`.
-/

namespace Cadence

/-- How the elapsed time is written. -/
inductive ElapsedFormat
  | seconds
  | duration
deriving DecidableEq

namespace ElapsedFormat

def name : ElapsedFormat → Text
  | .seconds => "seconds".toList
  | .duration => "duration".toList

def ofName (text : Text) : Except SettingsFault ElapsedFormat :=
  if text = seconds.name then .ok seconds
  else if text = duration.name then .ok duration
  else .error (.badElapsedFormat text)

end ElapsedFormat

/-- The time of day, hours without padding. -/
def clockText (second : Nat) : Text :=
  Decimal.write (second / 3600) ++ ':' :: Decimal.writeTwo (second / 60 % 60)
    ++ ':' :: Decimal.writeTwo (second % 60)

def daysText (days : Int) : Text :=
  Decimal.writeInt days ++ (if days.natAbs = 1 then " day, " else " days, ").toList

/-- A span as a duration, to the whole second. -/
def Span.durationText (span : Span) : Text :=
  let days := span.wholeSeconds / 86400
  let clock := clockText (span.wholeSeconds % 86400).toNat
  if days = 0 then clock else daysText days ++ clock

/-- A span in the chosen format. -/
def Span.format (span : Span) : ElapsedFormat → Text
  | .seconds => Decimal.writeInt span.wholeSeconds
  | .duration => span.durationText

/-- A sample that was taken. -/
structure Row where
  stamp : Text
  /-- The time since the first sample. -/
  elapsed : Span
  height : Text
deriving DecidableEq

namespace Row

def header : List Text :=
  ["date".toList, "elapsed time".toList, "height".toList]

def fields (row : Row) (format : ElapsedFormat) : List Text :=
  [row.stamp, row.elapsed.format format, row.height]

end Row

end Cadence
