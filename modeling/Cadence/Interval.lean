import Cadence.Failure
import Cadence.Time.Span

/-!
Sampling intervals: a numeral, which a plus sign may precede, in seconds or in the unit that a final
`s`, `m` or `h` names. An interval is at least a second long and no longer than the longest span.
-/

namespace Cadence.Interval

/-- The seconds of a unit. -/
def unit? : Char → Option Nat
  | 's' => some 1
  | 'm' => some 60
  | 'h' => some 3600
  | _ => none

/-- Takes the unit off the end of an interval, a second if none is named. -/
def cutUnit (text : Text) : Text × Nat :=
  match text.getLast?.bind unit? with
  | some seconds => (text.dropLast, seconds)
  | none => (text, 1)

/-- The value of a numeral that a plus sign may precede. -/
def count? : Text → Option Nat
  | '+' :: digits => Decimal.read? digits
  | digits => Decimal.read? digits

/-- The span of an interval, if it is one. -/
def read? (text : Text) : Option Span :=
  let (numeral, unit) := cutUnit text
  match count? numeral with
  | none => none
  | some count => if count = 0 then none else Span.ofSeconds? (count * unit)

/-- The span of an interval. -/
def read (text : Text) : Except SettingsFault Span :=
  match read? text with
  | none => .error (.badInterval text)
  | some span => .ok span

end Cadence.Interval
