import Cadence.Decimal
import Cadence.Time.Date
import Cadence.Time.Span

/-!
Points in time as a clock shows them: a date, a second of the day and nanoseconds. There is no time
zone. A leap second has no number of its own: it is the second before it running on, with
1 000 000 000 nanoseconds or more. In UTC that is the second 59 of a minute (`Timestamp.of?`), and any
second at an odd distance from UTC.

The time from one point to another counts the seconds on the face of the clock. A leap second that
lies wholly between two times of day is invisible to that count. One that either time of day stands in
is not: the face has not moved on while it lasts, and the second that it takes is put in or taken out
where the other time of day lies beyond it (`faceCorrection`). The dates play no part in this rule, so
across midnight it can count a second that the days do not have.
-/

namespace Cadence

/-- A reading of calendar and clock. -/
structure Timestamp where
  date : Date
  /-- The second of the day. -/
  second : Nat
  /-- Nanoseconds into the second, counted on through a leap second. -/
  nanosecond : Nat
  second_lt : second < 86400
  nanosecond_lt : nanosecond < 2000000000
deriving DecidableEq

namespace Timestamp

/-- The layout of a stamp in a log, in the customary conversion letters. -/
def layout : Text := "%Y-%m-%d %H:%M:%S".toList

/-- The reading with these numbers, where calendar and clock have it, a leap second at the end of its minute. -/
def of? (date : Date) (hour minute second nanosecond : Nat) : Option Timestamp :=
  if h : hour < 24 ∧ minute < 60 ∧ second < 60 ∧ nanosecond < 2000000000 ∧
      (1000000000 ≤ nanosecond → second = 59) then
    some
      { date
        second := 3600 * hour + 60 * minute + second
        nanosecond
        second_lt := by omega
        nanosecond_lt := by omega }
  else none

def hour (t : Timestamp) : Nat := t.second / 3600

def minute (t : Timestamp) : Nat := t.second / 60 % 60

/-- The second of the minute, 59 also in a leap second. -/
def secondOfMinute (t : Timestamp) : Nat := t.second % 60

/-- The reading stands in a leap second. -/
def InLeapSecond (t : Timestamp) : Prop := 1000000000 ≤ t.nanosecond

instance (t : Timestamp) : Decidable t.InLeapSecond := inferInstanceAs (Decidable (_ ≤ _))

/-! ## The time between two readings -/

/-- The second that a leap second adds to the way from one time of day up to a later one, or takes off
the way back, where the earlier of the two stands in it. -/
def faceCorrection (later earlier : Timestamp) : Int :=
  if earlier.second < later.second ∧ earlier.InLeapSecond then 1
  else if later.second < earlier.second ∧ later.InLeapSecond then -1
  else 0

/-- The nanoseconds from `earlier` to `later`, negative if they stand the other way round. -/
def nanosecondsSince (later earlier : Timestamp) : Int :=
  ((later.date.dayNumber - earlier.date.dayNumber) * 86400
      + ((later.second : Int) - earlier.second) + faceCorrection later earlier) * nanosecondsPerSecond
    + ((later.nanosecond : Int) - earlier.nanosecond)

theorem faceCorrection_bounds (later earlier : Timestamp) :
    -1 ≤ faceCorrection later earlier ∧ faceCorrection later earlier ≤ 1 := by
  unfold faceCorrection
  split
  · omega
  · split <;> omega

theorem nanosecondsSince_bounds (later earlier : Timestamp) :
    -Span.limit ≤ nanosecondsSince later earlier ∧ nanosecondsSince later earlier ≤ Span.limit := by
  have := later.date.dayNumber_lower
  have := later.date.dayNumber_upper
  have := earlier.date.dayNumber_lower
  have := earlier.date.dayNumber_upper
  have := later.second_lt
  have := earlier.second_lt
  have := later.nanosecond_lt
  have := earlier.nanosecond_lt
  have := faceCorrection_bounds later earlier
  simp only [nanosecondsSince, Span.limit, nanosecondsPerSecond]
  omega

/-- The span from `earlier` to `later`. It lies in the range, whatever the two years. -/
def since (later earlier : Timestamp) : Span :=
  ⟨nanosecondsSince later earlier, (nanosecondsSince_bounds later earlier).1,
    (nanosecondsSince_bounds later earlier).2⟩

/-! ## Stamps -/

/-- The reading that six numbers name, as a stamp gives them: second 60 is the leap second. -/
def ofNumbers? (year month day hour minute second : Nat) : Option Timestamp :=
  (Date.of? year month day).bind fun date =>
    if second = 60 then of? date hour minute 59 1000000000 else of? date hour minute second 0

/-- The reading that a stamp such as `2018-08-13 02:11:07` names, all its digits being `0` to `9`. -/
def ofStamp? : Text → Option Timestamp
  | [y₁, y₂, y₃, y₄, '-', m₁, m₂, '-', d₁, d₂, ' ', h₁, h₂, ':', n₁, n₂, ':', s₁, s₂] => do
    let year ← Decimal.read? [y₁, y₂, y₃, y₄]
    let month ← Decimal.read? [m₁, m₂]
    let day ← Decimal.read? [d₁, d₂]
    let hour ← Decimal.read? [h₁, h₂]
    let minute ← Decimal.read? [n₁, n₂]
    let second ← Decimal.read? [s₁, s₂]
    ofNumbers? year month day hour minute second
  | _ => none

end Timestamp

end Cadence
