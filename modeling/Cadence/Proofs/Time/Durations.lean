import Mathlib.Data.List.Basic
import Cadence.Row
import Cadence.Proofs.Text.Integers
import Cadence.Proofs.Text.Pieces

/-!
Durations and what they say. A duration is a clock time, behind a number of days unless that is zero (`IsDuration`);
the days count down where the clock goes on, so that a negative span has fewer days than whole seconds and a clock that
is not negative. Read back (`durationSeconds?`), it is the number of whole seconds that the other format writes, so that
each format tells of two rows what the other one does (`Span.formats_agree`).
-/

namespace Cadence

/-! ## The form of a duration -/

/-- The text is a time of day, the hour without padding, the minute and the second in two digits each. -/
def IsClock (text : Text) (hours minutes seconds : Nat) : Prop :=
  hours ≤ 23 ∧ minutes ≤ 59 ∧ seconds ≤ 59 ∧ ∃ h m s, Decimal.IsUnpadded h hours ∧ Decimal.IsNumeral 2 m minutes ∧
    Decimal.IsNumeral 2 s seconds ∧ text = h ++ ':' :: m ++ ':' :: s

/-- The text is a time of day, behind the number of days unless there are none: a single day either way has the
singular. -/
inductive IsDuration : Text → Int → Nat → Nat → Nat → Prop
  | clock {clock : Text} {hours minutes seconds : Nat} : IsClock clock hours minutes seconds →
      IsDuration clock 0 hours minutes seconds
  | day {number clock : Text} {days : Int} {hours minutes seconds : Nat} : days = 1 ∨ days = -1 →
      Decimal.IsInteger number days → IsClock clock hours minutes seconds →
      IsDuration (number ++ " day, ".toList ++ clock) days hours minutes seconds
  | days {number clock : Text} {days : Int} {hours minutes seconds : Nat} : days ≠ 0 → days ≠ 1 → days ≠ -1 →
      Decimal.IsInteger number days → IsClock clock hours minutes seconds →
      IsDuration (number ++ " days, ".toList ++ clock) days hours minutes seconds

/-- The number is that of the whole seconds from zero to the span, a fraction being left out on either side. -/
def Span.HasSeconds (span : Span) (seconds : Int) : Prop :=
  (0 ≤ span.nanoseconds ∧ seconds * nanosecondsPerSecond ≤ span.nanoseconds ∧
    span.nanoseconds < (seconds + 1) * nanosecondsPerSecond) ∨
  (span.nanoseconds < 0 ∧ (seconds - 1) * nanosecondsPerSecond < span.nanoseconds ∧
    span.nanoseconds ≤ seconds * nanosecondsPerSecond)

/-! ## Reading -/

/-- The integer of a numeral that a minus sign may precede. -/
def Decimal.readInt? : Text → Option Int
  | '-' :: digits => (read? digits).map fun n => -(n : Int)
  | digits => (read? digits).map fun n => (n : Int)

def clockSeconds? (text : Text) : Option Nat :=
  match (pieces ':' text).mapM Decimal.read? with
  | some [hours, minutes, seconds] => some (hours * 3600 + minutes * 60 + seconds)
  | _ => none

/-- The seconds of a duration. -/
def durationSeconds? (text : Text) : Option Int :=
  match pieces ' ' text with
  | [clock] => (clockSeconds? clock).map fun seconds => (seconds : Int)
  | [number, _, clock] =>
    (Decimal.readInt? number).bind fun days => (clockSeconds? clock).map fun seconds => days * 86400 + seconds
  | _ => none

namespace Decimal

theorem IsUnpadded.read? {text : Text} {n : Nat} (numeral : IsUnpadded text n) : read? text = some n :=
  ((isNumeral_iff (List.length_pos_iff.mpr numeral.something)).mp numeral.numeral).2

theorem IsInteger.readInt? {text : Text} {n : Int} (numeral : IsInteger text n) : readInt? text = some n := by
  cases numeral with
  | @natural text n numeral =>
    rw [Decimal.readInt?.eq_2, numeral.read?]
    · rfl
    · rintro digits rfl
      exact numeral.not_minus
  | negative _ numeral =>
    rw [Decimal.readInt?, numeral.read?]
    rfl

/-- Two digits are the numeral of the number below a hundred that they are written for. -/
theorem isNumeral_two_iff {text : Text} {n : Nat} : IsNumeral 2 text n ↔ n < 100 ∧ text = writeTwo n := by
  rw [isNumeral_iff (by decide)]
  constructor
  · rintro ⟨length, read⟩
    obtain ⟨a, b, rfl⟩ := List.length_eq_two.mp length
    exact read?_two_iff.mp read
  · rintro ⟨small, rfl⟩
    exact ⟨rfl, read?_two_iff.mpr ⟨small, rfl⟩⟩

end Decimal

section
variable {text : Text} {days : Int} {hours minutes seconds : Nat}

/-! ## Writing -/

theorem isClock_iff : IsClock text hours minutes seconds ↔
    hours ≤ 23 ∧ minutes ≤ 59 ∧ seconds ≤ 59 ∧ text = clockText (hours * 3600 + minutes * 60 + seconds) := by
  have parts : minutes ≤ 59 → seconds ≤ 59 → clockText (hours * 3600 + minutes * 60 + seconds) =
      Decimal.write hours ++ ':' :: Decimal.writeTwo minutes ++ ':' :: Decimal.writeTwo seconds := by
    intro minutesBelow secondsBelow
    rw [clockText, show (hours * 3600 + minutes * 60 + seconds) / 3600 = hours by omega,
      show (hours * 3600 + minutes * 60 + seconds) / 60 % 60 = minutes by omega,
      show (hours * 3600 + minutes * 60 + seconds) % 60 = seconds by omega]
  constructor
  · rintro ⟨hoursBelow, minutesBelow, secondsBelow, h, m, s, hour, minute, second, rfl⟩
    rw [parts minutesBelow secondsBelow, hour.eq_write, (Decimal.isNumeral_two_iff.mp minute).2,
      (Decimal.isNumeral_two_iff.mp second).2]
    exact ⟨hoursBelow, minutesBelow, secondsBelow, rfl⟩
  · rintro ⟨hoursBelow, minutesBelow, secondsBelow, rfl⟩
    exact ⟨hoursBelow, minutesBelow, secondsBelow, _, _, _, Decimal.isUnpadded_write hours,
      Decimal.isNumeral_two_iff.mpr ⟨by omega, rfl⟩, Decimal.isNumeral_two_iff.mpr ⟨by omega, rfl⟩,
      parts minutesBelow secondsBelow⟩

theorem isDuration_iff : IsDuration text days hours minutes seconds ↔ ∃ clock,
    IsClock clock hours minutes seconds ∧ text = if days = 0 then clock else daysText days ++ clock := by
  constructor
  · intro duration
    cases duration with
    | clock clock => exact ⟨_, clock, (if_pos rfl).symm⟩
    | day single number clock =>
      refine ⟨_, clock, ?_⟩
      rw [if_neg (by omega), daysText, if_pos (by omega), Decimal.isInteger_iff.mp number]
    | days zero one other number clock =>
      refine ⟨_, clock, ?_⟩
      rw [if_neg zero, daysText, if_neg (by omega), Decimal.isInteger_iff.mp number]
  · rintro ⟨clock, isClock, rfl⟩
    have number := Decimal.isInteger_iff.mpr (Eq.refl (Decimal.writeInt days))
    by_cases zero : days = 0
    · subst zero
      exact .clock isClock
    · rw [if_neg zero, daysText]
      by_cases single : days.natAbs = 1
      · rw [if_pos single]
        exact .day (by omega) number isClock
      · rw [if_neg single]
        exact .days zero (by omega) (by omega) number isClock

/-- A span is written as the one duration that is worth its whole seconds. -/
theorem Span.eq_durationText_iff {span : Span} : text = span.durationText ↔ ∃ days hours minutes seconds,
    IsDuration text days hours minutes seconds ∧
      days * 86400 + hours * 3600 + minutes * 60 + seconds = span.wholeSeconds := by
  constructor
  · rintro rfl
    have rest : 0 ≤ span.wholeSeconds % 86400 ∧ span.wholeSeconds % 86400 < 86400 := by omega
    have days : 86400 * (span.wholeSeconds / 86400) + span.wholeSeconds % 86400 = span.wholeSeconds := by omega
    obtain ⟨second, isRest⟩ := Int.eq_ofNat_of_zero_le rest.1
    refine ⟨span.wholeSeconds / 86400, second / 3600, second / 60 % 60, second % 60,
      isDuration_iff.mpr ⟨clockText second, isClock_iff.mpr ?_, ?_⟩, by omega⟩
    · rw [show second / 3600 * 3600 + second / 60 % 60 * 60 + second % 60 = second by omega]
      exact ⟨by omega, by omega, by omega, rfl⟩
    · rw [durationText, isRest, Int.toNat_natCast]
  · rintro ⟨days, hours, minutes, seconds, duration, worth⟩
    obtain ⟨clock, isClock, rfl⟩ := isDuration_iff.mp duration
    obtain ⟨_, _, _, rfl⟩ := isClock_iff.mp isClock
    rw [durationText, show span.wholeSeconds / 86400 = days by omega,
      show (span.wholeSeconds % 86400).toNat = hours * 3600 + minutes * 60 + seconds by omega]

/-! ## Reading back -/

theorem IsClock.seconds?_eq (clock : IsClock text hours minutes seconds) :
    clockSeconds? text = some (hours * 3600 + minutes * 60 + seconds) := by
  obtain ⟨_, _, _, h, m, s, hour, minute, second, rfl⟩ := clock
  have apart : ∀ {count : Nat} {text : Text} {n : Nat}, Decimal.IsNumeral count text n → ':' ∉ text := by
    intro count text n numeral member
    exact absurd (numeral.digits ':' member) (by decide)
  rw [clockSeconds?, List.append_assoc, List.cons_append, pieces_append_cons, pieces_append_cons,
    pieces_of_not_mem (apart hour.numeral), pieces_of_not_mem (apart minute), pieces_of_not_mem (apart second)]
  have readMinute := ((Decimal.isNumeral_iff (by decide)).mp minute).2
  have readSecond := ((Decimal.isNumeral_iff (by decide)).mp second).2
  simp [hour.read?, readMinute, readSecond]

theorem IsClock.of_mem (clock : IsClock text hours minutes seconds) {c : Char} (member : c ∈ text) :
    c = ':' ∨ ('0' ≤ c ∧ c ≤ '9') := by
  obtain ⟨_, _, _, h, m, s, hour, minute, second, rfl⟩ := clock
  simp only [List.append_assoc, List.cons_append, List.mem_append, List.mem_cons] at member
  rcases member with inHour | colon | inMinute | colon | inSecond
  · exact .inr (hour.numeral.digits c inHour)
  · exact .inl colon
  · exact .inr (minute.digits c inMinute)
  · exact .inl colon
  · exact .inr (second.digits c inSecond)

theorem IsClock.not_blank (clock : IsClock text hours minutes seconds) : ' ' ∉ text := by
  intro member
  rcases clock.of_mem member with colon | digit
  · exact absurd colon (by decide)
  · exact absurd digit (by decide)

theorem IsDuration.of_mem (duration : IsDuration text days hours minutes seconds) {c : Char} (member : c ∈ text) :
    c ∈ "-: days,".toList ∨ ('0' ≤ c ∧ c ≤ '9') := by
  have inClock : ∀ {clock : Text}, IsClock clock hours minutes seconds → c ∈ clock →
      c ∈ "-: days,".toList ∨ ('0' ≤ c ∧ c ≤ '9') := by
    intro clock isClock member
    exact (isClock.of_mem member).imp_left fun colon => by rw [colon]; decide
  have inNumber : ∀ {number : Text}, Decimal.IsInteger number days → c ∈ number →
      c ∈ "-: days,".toList ∨ ('0' ≤ c ∧ c ≤ '9') := by
    intro number isNumber member
    exact (isNumber.of_mem member).imp_left fun minus => by rw [minus]; decide
  have words : " day, ".toList ++ " days, ".toList ⊆ "-: days,".toList := by decide
  cases duration with
  | clock isClock => exact inClock isClock member
  | day _ isNumber isClock =>
    rcases List.mem_append.mp member with member | member
    · rcases List.mem_append.mp member with member | member
      · exact inNumber isNumber member
      · exact .inl (words (List.mem_append_left _ member))
    · exact inClock isClock member
  | days _ _ _ isNumber isClock =>
    rcases List.mem_append.mp member with member | member
    · rcases List.mem_append.mp member with member | member
      · exact inNumber isNumber member
      · exact .inl (words (List.mem_append_right _ member))
    · exact inClock isClock member

/-- Days and a time of day behind them are read one by one, whatever word stands between them. -/
theorem durationSeconds?_of_days {number clock : Text} (word : Text) (isNumber : Decimal.IsInteger number days)
    (single : ' ' ∉ word) (isClock : IsClock clock hours minutes seconds) :
    durationSeconds? (number ++ ' ' :: (word ++ ' ' :: clock)) =
      some (days * 86400 + hours * 3600 + minutes * 60 + seconds) := by
  have notInNumber : ' ' ∉ number := by
    intro member
    rcases isNumber.of_mem member with minus | digit
    · exact absurd minus (by decide)
    · exact absurd digit (by decide)
  rw [durationSeconds?, pieces_append_cons, pieces_append_cons, pieces_of_not_mem notInNumber, pieces_of_not_mem single,
    pieces_of_not_mem isClock.not_blank]
  simp [isNumber.readInt?, isClock.seconds?_eq, Int.add_assoc]

/-- A duration is read as the seconds that its parts are worth. -/
theorem IsDuration.seconds?_eq (duration : IsDuration text days hours minutes seconds) :
    durationSeconds? text = some (days * 86400 + hours * 3600 + minutes * 60 + seconds) := by
  cases duration with
  | clock clock =>
    rw [durationSeconds?, pieces_of_not_mem clock.not_blank]
    simp [clock.seconds?_eq]
  | @day number clock _ _ _ _ _ isNumber isClock =>
    rw [List.append_assoc]
    exact durationSeconds?_of_days "day,".toList isNumber (by decide) isClock
  | @days number clock _ _ _ _ _ _ _ isNumber isClock =>
    rw [List.append_assoc]
    exact durationSeconds?_of_days "days,".toList isNumber (by decide) isClock

end

/-! ## One number in both formats -/

namespace Span

/-- The whole seconds are those from zero to the span, and no other number is. -/
theorem hasSeconds_iff {span : Span} {n : Int} : span.HasSeconds n ↔ n = span.wholeSeconds := by
  rw [HasSeconds, wholeSeconds, nanosecondsPerSecond]
  rcases Int.lt_or_le span.nanoseconds 0 with negative | natural
  · have mirrored : span.nanoseconds.tdiv 1000000000 = -(-span.nanoseconds / 1000000000) := by
      rw [← Int.tdiv_eq_ediv_of_nonneg (by omega), Int.neg_tdiv, Int.neg_neg]
    omega
  · have floor : span.nanoseconds.tdiv 1000000000 = span.nanoseconds / 1000000000 :=
      Int.tdiv_eq_ediv_of_nonneg natural
    omega

theorem durationSeconds?_durationText (span : Span) : durationSeconds? span.durationText = some span.wholeSeconds := by
  obtain ⟨days, hours, minutes, seconds, duration, worth⟩ := eq_durationText_iff.mp (Eq.refl span.durationText)
  rw [duration.seconds?_eq, worth]

/-- A duration is a time of day behind the days, unless there are none, and is worth the seconds of the other format:
those from zero to the span. So two rows show the same elapsed time in one format if and only if they do in the other. -/
theorem formats_agree :
    (∀ (span : Span) (text : Text), text = span.format .duration ↔ ∃ days hours minutes seconds,
      IsDuration text days hours minutes seconds ∧
        days * 86400 + hours * 3600 + minutes * 60 + seconds = span.wholeSeconds) ∧
    (∀ span : Span, durationSeconds? (span.format .duration) = some span.wholeSeconds) ∧
    (∀ span : Span, Decimal.IsInteger (span.format .seconds) span.wholeSeconds ∧
      ∀ n, span.HasSeconds n ↔ n = span.wholeSeconds) ∧
    ∀ first second : Row, (first.fields .seconds)[1]? = (second.fields .seconds)[1]? ↔
      (first.fields .duration)[1]? = (second.fields .duration)[1]? := by
  refine ⟨fun span text => eq_durationText_iff, durationSeconds?_durationText,
    fun span => ⟨Decimal.isInteger_iff.mpr rfl, fun _ => hasSeconds_iff⟩, ?_⟩
  intro first second
  show some (Decimal.writeInt first.elapsed.wholeSeconds) = some (Decimal.writeInt second.elapsed.wholeSeconds) ↔
    some first.elapsed.durationText = some second.elapsed.durationText
  rw [Option.some_inj, Option.some_inj, Decimal.writeInt_inj]
  constructor
  · intro same
    rw [durationText, durationText, same]
  · intro same
    have read := durationSeconds?_durationText first.elapsed
    rw [same, durationSeconds?_durationText] at read
    exact (Option.some.inj read).symm

/-- Five minutes back, a day is borrowed. -/
example : (ofSeconds? (-300)).map (·.format .duration) = some "-1 day, 23:55:00".toList := by decide +kernel

end Span

end Cadence
