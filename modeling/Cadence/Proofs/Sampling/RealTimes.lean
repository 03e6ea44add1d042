import Mathlib.Data.List.Basic
import Mathlib.Tactic.IntervalCases
import Cadence.Proofs.Sampling.Grammar
import Cadence.Proofs.Sampling.Stamps
import Cadence.Proofs.Text.Numerals

/-!
Which stamps are times. The calendar is a table of twelve months (`Date.monthLengths`), and a stamp names a time if its
digits are `0` to `9` and their numbers are a day of that calendar, an hour, a minute and a second or leap second
(`Timestamp.NamesTime`). A line with a marker gives a sample exactly if its stamp does, and that sample keeps the whole
stamp in its time (`Sample.ofLine_faithful`).
-/

namespace Cadence

/-! ## The calendar -/

namespace Date

/-- The lengths of the months from January on. February has 29 days in the years that 4 divides and 100 does not, and in
those that 400 divides. -/
def monthLengths (year : Nat) : List Nat :=
  [31, if (4 ∣ year ∧ ¬ 100 ∣ year) ∨ 400 ∣ year then 29 else 28, 31, 30, 31, 30, 31, 31, 30, 31, 30, 31]

/-- A day that the calendar has. -/
def IsDay (year month day : Nat) : Prop :=
  1 ≤ month ∧ 1 ≤ day ∧ ∃ length, (monthLengths year)[month - 1]? = some length ∧ day ≤ length

theorem isLeapYear_iff {year : Nat} : isLeapYear year = true ↔ (4 ∣ year ∧ ¬ 100 ∣ year) ∨ 400 ∣ year := by
  simp only [isLeapYear, Bool.and_eq_true, Bool.or_eq_true, decide_eq_true_eq]
  omega

theorem monthLengths_getElem? (year : Nat) {month : Nat} (inYear : 1 ≤ month ∧ month ≤ 12) :
    (monthLengths year)[month - 1]? = some (daysInMonth year month) := by
  obtain ⟨first, last⟩ := inYear
  by_cases leap : (4 ∣ year ∧ ¬ 100 ∣ year) ∨ 400 ∣ year <;>
    simp only [monthLengths, daysInMonth, isLeapYear_iff, leap, if_true, if_false] <;>
    interval_cases month <;> rfl

theorem isDay_iff {year month day : Nat} : IsDay year month day ↔ 1 ≤ day ∧ day ≤ daysInMonth year month := by
  constructor
  · rintro ⟨first, positive, length, entry, within⟩
    have inTable : month - 1 < 12 := (List.getElem?_eq_some_iff.mp entry).1
    rw [monthLengths_getElem? year ⟨first, by omega⟩] at entry
    obtain rfl := Option.some.inj entry
    exact ⟨positive, within⟩
  · rintro ⟨positive, within⟩
    have inYear := month_of_daysInMonth_pos (Nat.le_trans positive within)
    exact ⟨inYear.1, positive, _, monthLengths_getElem? year inYear, within⟩

end Date

/-! ## Times -/

namespace Timestamp

/-- The text is the numerals of these numbers in the places of a date and a time of day. -/
def AreNumerals (stamp : Text) (year month day hour minute second : Nat) : Prop :=
  ∃ y m d h n s, Decimal.IsNumeral 4 y year ∧ Decimal.IsNumeral 2 m month ∧ Decimal.IsNumeral 2 d day ∧
    Decimal.IsNumeral 2 h hour ∧ Decimal.IsNumeral 2 n minute ∧ Decimal.IsNumeral 2 s second ∧
    stamp = y ++ '-' :: m ++ '-' :: d ++ ' ' :: h ++ ':' :: n ++ ':' :: s

/-- The text is a day of the calendar and a time of day, in the digits `0` to `9`. Any minute can end in a leap second. -/
def NamesTime (stamp : Text) : Prop :=
  ∃ year month day hour minute second, AreNumerals stamp year month day hour minute second ∧
    Date.IsDay year month day ∧ hour ≤ 23 ∧ minute ≤ 59 ∧ second ≤ 60

section
variable {year month day hour minute second : Nat}

theorem exists_of?_iff {date : Date} {nanosecond : Nat} : (∃ t, of? date hour minute second nanosecond = some t) ↔
    hour < 24 ∧ minute < 60 ∧ second < 60 ∧ nanosecond < 2000000000 ∧ (1000000000 ≤ nanosecond → second = 59) := by
  unfold of?
  split <;> simp_all

private theorem length_eq_four {text : Text} (length : text.length = 4) : ∃ a b c d, text = [a, b, c, d] := by
  match text, length with
  | [a, b, c, d], _ => exact ⟨a, b, c, d, rfl⟩

theorem AreNumerals.year_le {stamp : Text} (numerals : AreNumerals stamp year month day hour minute second) :
    year ≤ 9999 := by
  obtain ⟨y, _, _, _, _, _, numeral, _⟩ := numerals
  obtain ⟨length, read⟩ := (Decimal.isNumeral_iff (by decide)).mp numeral
  obtain ⟨_, _, _, _, rfl⟩ := length_eq_four length
  exact Nat.le_of_lt_succ (Decimal.read?_four_iff.mp read).1

theorem exists_ofNumbers?_iff (fourDigits : year ≤ 9999) :
    (∃ t, ofNumbers? year month day hour minute second = some t) ↔
      Date.IsDay year month day ∧ hour ≤ 23 ∧ minute ≤ 59 ∧ second ≤ 60 := by
  have inRange : Date.firstYear ≤ (year : Int) ∧ (year : Int) ≤ Date.lastYear := by
    simp only [Date.firstYear, Date.lastYear]
    omega
  rw [ofNumbers?, Date.of?, Date.isDay_iff]
  by_cases real : 1 ≤ day ∧ day ≤ Date.daysInMonth year month
  · rw [dif_pos ⟨inRange, real⟩, Option.bind_some]
    by_cases leap : second = 60
    · rw [if_pos leap, exists_of?_iff]
      omega
    · rw [if_neg leap, exists_of?_iff]
      omega
  · rw [dif_neg (fun bounds => real bounds.2)]
    simp [real]

end

/-- A text that names a reading is six numerals in their places. -/
theorem ofStamp?_eq_some_iff_numerals {stamp : Text} {t : Timestamp} : ofStamp? stamp = some t ↔
    ∃ year month day hour minute second, AreNumerals stamp year month day hour minute second ∧
      ofNumbers? year month day hour minute second = some t := by
  simp only [AreNumerals, Decimal.isNumeral_iff (by decide : 0 < 4), Decimal.isNumeral_iff (by decide : 0 < 2)]
  constructor
  · intro read
    unfold ofStamp? at read
    split at read
    · simp only [bind, Option.bind_eq_some_iff] at read
      obtain ⟨year, y, month, m, day, d, hour, h, minute, n, second, s, named⟩ := read
      exact ⟨year, month, day, hour, minute, second,
        ⟨_, _, _, _, _, _, ⟨rfl, y⟩, ⟨rfl, m⟩, ⟨rfl, d⟩, ⟨rfl, h⟩, ⟨rfl, n⟩, ⟨rfl, s⟩, rfl⟩, named⟩
    · contradiction
  · rintro ⟨year, month, day, hour, minute, second, ⟨_, _, _, _, _, _, ⟨fourDigits, y⟩, ⟨mTwo, m⟩, ⟨dTwo, d⟩,
      ⟨hTwo, h⟩, ⟨nTwo, n⟩, ⟨sTwo, s⟩, rfl⟩, named⟩
    obtain ⟨_, _, _, _, rfl⟩ := length_eq_four fourDigits
    obtain ⟨_, _, rfl⟩ := List.length_eq_two.mp mTwo
    obtain ⟨_, _, rfl⟩ := List.length_eq_two.mp dTwo
    obtain ⟨_, _, rfl⟩ := List.length_eq_two.mp hTwo
    obtain ⟨_, _, rfl⟩ := List.length_eq_two.mp nTwo
    obtain ⟨_, _, rfl⟩ := List.length_eq_two.mp sTwo
    simp only [List.cons_append, List.nil_append, ofStamp?, y, m, d, h, n, s, bind, Option.bind_some, named]

theorem exists_ofStamp?_iff {stamp : Text} : (∃ t, ofStamp? stamp = some t) ↔ NamesTime stamp := by
  simp only [ofStamp?_eq_some_iff_numerals]
  constructor
  · rintro ⟨t, year, month, day, hour, minute, second, numerals, named⟩
    exact ⟨year, month, day, hour, minute, second, numerals, (exists_ofNumbers?_iff numerals.year_le).mp ⟨t, named⟩⟩
  · rintro ⟨year, month, day, hour, minute, second, numerals, real⟩
    obtain ⟨t, named⟩ := (exists_ofNumbers?_iff numerals.year_le).mpr real
    exact ⟨t, year, month, day, hour, minute, second, numerals, named⟩

end Timestamp

/-! ## Samples -/

namespace Sample

theorem time_eq_iff {number otherNumber : Nat} {line otherLine : Text} {sample other : Sample}
    (read : ofLine number line = .ok (some sample)) (otherRead : ofLine otherNumber otherLine = .ok (some other)) :
    sample.time = other.time ↔ sample.stamp = other.stamp := by
  have named := ofStamp?_of_ofLine read
  have otherNamed := ofStamp?_of_ofLine otherRead
  constructor
  · intro same
    rw [← (Timestamp.ofStamp?_eq_some_iff.mp named).1, same, (Timestamp.ofStamp?_eq_some_iff.mp otherNamed).1]
  · intro same
    rw [same, otherNamed] at named
    exact (Option.some.inj named).symm

/-- A line that can be taken apart comes to what its stamp names. -/
theorem ofLine_of_parts {line stamp before height after : Text}
    (parts : Marked.Parts (line.takeWhile (· ≠ '\n')) stamp before height after) : ∃ last, ∀ number,
      ofLine number line = match Timestamp.ofStamp? stamp with
        | none => .error (.badTimestamp number stamp)
        | some time => .ok (some ⟨stamp, time, last⟩) := by
  cases found : Marked.ofLine? line with
  | none => exact absurd parts (Marked.ofLine?_eq_none_iff.mp found stamp before height after)
  | some marked =>
    have carries := Marked.ofLine?_eq_some_iff.mp found
    obtain ⟨_, _, last⟩ := Marked.carries_iff.mp carries
    obtain rfl : marked.stamp = stamp := last.parts.stamp_eq.trans parts.stamp_eq.symm
    exact ⟨marked.height, ofLine_of_carries carries⟩

/-- A line with a marker gives a sample exactly if its stamp names a time, and otherwise the failure that tells the stamp
and the number of the line. The time of the sample, written out, is the stamp again; so samples of any two lines have the
same time exactly if they have the same stamp. -/
theorem ofLine_faithful (number : Nat) (line : Text) {stamp before height after : Text}
    (parts : Marked.Parts (line.takeWhile (· ≠ '\n')) stamp before height after) :
    ((∃ sample, ofLine number line = .ok (some sample)) ↔ Timestamp.NamesTime stamp) ∧
    (¬ Timestamp.NamesTime stamp → ofLine number line = .error (.badTimestamp number stamp)) ∧
    ∀ sample, ofLine number line = .ok (some sample) → sample.stamp = stamp ∧ sample.time.stamp = stamp ∧
      ∀ otherNumber otherLine other, ofLine otherNumber otherLine = .ok (some other) →
        (sample.time = other.time ↔ sample.stamp = other.stamp) := by
  obtain ⟨last, read⟩ := ofLine_of_parts parts
  have comesTo := read number
  cases named : Timestamp.ofStamp? stamp with
  | none =>
    simp only [named] at comesTo
    have unreal : ¬ Timestamp.NamesTime stamp := by simp [← Timestamp.exists_ofStamp?_iff, named]
    rw [comesTo]
    exact ⟨by simp [unreal], fun _ => rfl, by simp⟩
  | some time =>
    simp only [named] at comesTo
    have real : Timestamp.NamesTime stamp := Timestamp.exists_ofStamp?_iff.mp ⟨time, named⟩
    refine ⟨⟨fun _ => real, fun _ => ⟨_, comesTo⟩⟩, fun unreal => absurd real unreal, ?_⟩
    intro sample isRead
    have written : sample.stamp = stamp := by
      rw [comesTo] at isRead
      simp only [Except.ok.injEq, Option.some.injEq] at isRead
      rw [← isRead]
    have back := (Timestamp.ofStamp?_eq_some_iff.mp (ofStamp?_of_ofLine isRead)).1
    exact ⟨written, back.trans written, fun _ _ _ otherRead => time_eq_iff isRead otherRead⟩

/-- The leap second at the end of the leap day of year 0, and the day that 1900 does not have. -/
theorem ofLine_faithful_of_leap_days :
    let leap := "0000-02-29 23:59:60".toList
    let noDay := "1900-02-29 00:00:00".toList
    let mark := " UpdateTip height=07 v".toList
    Timestamp.NamesTime leap ∧ (∃ sample, ofLine 1 (leap ++ mark) = .ok (some sample) ∧ sample.time.stamp = leap) ∧
      ¬ Timestamp.NamesTime noDay ∧ ofLine 2 (noDay ++ mark) = .error (.badTimestamp 2 noDay) := by
  intro leap noDay mark
  have leapFound : Marked.ofLine? (leap ++ mark) = some ⟨leap, "07".toList⟩ := by decide +kernel
  have noDayFound : Marked.ofLine? (noDay ++ mark) = some ⟨noDay, "07".toList⟩ := by decide +kernel
  have read : ∃ time, Timestamp.ofStamp? leap = some time := Option.isSome_iff_exists.mp (by decide +kernel)
  have unread : Timestamp.ofStamp? noDay = none := by decide +kernel
  obtain ⟨_, _, leapLast⟩ := Marked.carries_iff.mp (Marked.ofLine?_eq_some_iff.mp leapFound)
  obtain ⟨_, _, noDayLast⟩ := Marked.carries_iff.mp (Marked.ofLine?_eq_some_iff.mp noDayFound)
  obtain ⟨leapReads, _, leapStamp⟩ := ofLine_faithful 1 (leap ++ mark) leapLast.parts
  obtain ⟨_, noDayFails, _⟩ := ofLine_faithful 2 (noDay ++ mark) noDayLast.parts
  have real : Timestamp.NamesTime leap := Timestamp.exists_ofStamp?_iff.mp read
  have unreal : ¬ Timestamp.NamesTime noDay := by simp [← Timestamp.exists_ofStamp?_iff, unread]
  obtain ⟨sample, isRead⟩ := leapReads.mpr real
  exact ⟨real, ⟨sample, isRead, (leapStamp sample isRead).2.1⟩, unreal, noDayFails unreal⟩

end Sample

end Cadence
