import Cadence.Proofs.Text.Numerals
import Cadence.Time.Timestamp

/-!
The stamps of a log and the readings that they name. A reading is written as a stamp with four digits for
the year and two for all else, a leap second being second 60 (`Timestamp.stamp`). A text names a reading
exactly when the reading is one that a stamp can tell and is written so (`Timestamp.ofStamp?_eq_some_iff`).
-/

namespace Cadence

theorem Date.of?_eq_some_iff {year : Int} {month day : Nat} {date : Date} :
    Date.of? year month day = some date ↔ date.year = year ∧ date.month = month ∧ date.day = day := by
  unfold Date.of?
  constructor
  · intro read
    split at read
    · obtain rfl := Option.some.inj read
      exact ⟨rfl, rfl, rfl⟩
    · contradiction
  · rintro ⟨rfl, rfl, rfl⟩
    rw [dif_pos ⟨⟨date.year_first, date.year_last⟩, date.day_pos, date.day_le⟩]

namespace Timestamp

theorem of?_eq_some_iff {date : Date} {hour minute second nanosecond : Nat} {t : Timestamp} :
    of? date hour minute second nanosecond = some t ↔ t.date = date ∧ t.hour = hour ∧ t.minute = minute ∧
      t.secondOfMinute = second ∧ t.nanosecond = nanosecond ∧ (t.InLeapSecond → t.secondOfMinute = 59) := by
  unfold of?
  constructor
  · intro read
    split at read
    · rename_i bounds
      obtain rfl := Option.some.inj read
      have ofMinute : (3600 * hour + 60 * minute + second) % 60 = second := by omega
      refine ⟨rfl, ?_, ?_, ofMinute, rfl, fun leap => ofMinute.trans (bounds.2.2.2.2 leap)⟩
      · show (3600 * hour + 60 * minute + second) / 3600 = hour
        omega
      · show (3600 * hour + 60 * minute + second) / 60 % 60 = minute
        omega
    · contradiction
  · rintro ⟨rfl, rfl, rfl, rfl, rfl, ofMinute⟩
    have inDay := t.second_lt
    have whole : 3600 * t.hour + 60 * t.minute + t.secondOfMinute = t.second := by
      simp only [Timestamp.hour, Timestamp.minute, secondOfMinute]
      omega
    have bounds : t.hour < 24 ∧ t.minute < 60 ∧ t.secondOfMinute < 60 ∧ t.nanosecond < 2000000000 ∧
        (1000000000 ≤ t.nanosecond → t.secondOfMinute = 59) := by
      refine ⟨?_, ?_, ?_, t.nanosecond_lt, ofMinute⟩ <;>
        simp only [Timestamp.hour, Timestamp.minute, secondOfMinute] <;> omega
    rw [dif_pos bounds]
    simp only [whole]

/-! ## Readings as stamps -/

/-- The second as a stamp shows it, 60 for a leap second. -/
def shownSecond (t : Timestamp) : Nat :=
  if t.InLeapSecond then 60 else t.secondOfMinute

theorem shownSecond_of_leap {t : Timestamp} (leap : t.InLeapSecond) : t.shownSecond = 60 := if_pos leap

theorem shownSecond_of_not_leap {t : Timestamp} (ordinary : ¬ t.InLeapSecond) : t.shownSecond = t.secondOfMinute :=
  if_neg ordinary

def stamp (t : Timestamp) : Text :=
  Decimal.writeTwo (t.date.year.toNat / 100) ++ Decimal.writeTwo (t.date.year.toNat % 100)
    ++ '-' :: Decimal.writeTwo t.date.month ++ '-' :: Decimal.writeTwo t.date.day
    ++ ' ' :: Decimal.writeTwo t.hour ++ ':' :: Decimal.writeTwo t.minute ++ ':' :: Decimal.writeTwo t.shownSecond

/-- A stamp can tell the reading: its year has four digits and it falls on the beginning of a second, or of a leap
second at the end of its minute. -/
def IsWhole (t : Timestamp) : Prop :=
  (0 ≤ t.date.year ∧ t.date.year ≤ 9999) ∧
    (t.nanosecond = 0 ∨ t.nanosecond = 1000000000 ∧ t.secondOfMinute = 59)

theorem ofNumbers?_eq_some_iff {year month day hour minute second : Nat} {t : Timestamp} :
    ofNumbers? year month day hour minute second = some t ↔
      (t.date.year = year ∧ t.date.month = month ∧ t.date.day = day) ∧ t.hour = hour ∧ t.minute = minute ∧
        t.shownSecond = second ∧ (t.nanosecond = 0 ∨ t.nanosecond = 1000000000 ∧ t.secondOfMinute = 59) := by
  unfold ofNumbers?
  simp only [Option.bind_eq_some_iff, Date.of?_eq_some_iff]
  have inMinute : t.secondOfMinute < 60 := Nat.mod_lt _ (by decide)
  constructor
  · rintro ⟨date, numbers, read⟩
    split at read
    · rename_i leap
      obtain ⟨rfl, rfl, rfl, last, nanos, _⟩ := of?_eq_some_iff.mp read
      refine ⟨numbers, rfl, rfl, ?_, .inr ⟨nanos, last⟩⟩
      rw [shownSecond_of_leap (Nat.le_of_eq nanos.symm), leap]
    · obtain ⟨rfl, rfl, rfl, rfl, nanos, _⟩ := of?_eq_some_iff.mp read
      exact ⟨numbers, rfl, rfl, shownSecond_of_not_leap (by simp [InLeapSecond, nanos]), .inl nanos⟩
  · rintro ⟨numbers, rfl, rfl, rfl, nanos⟩
    refine ⟨t.date, numbers, ?_⟩
    rcases nanos with nanos | ⟨nanos, last⟩
    · have ordinary : ¬ t.InLeapSecond := by simp [InLeapSecond, nanos]
      rw [shownSecond_of_not_leap ordinary, if_neg (Nat.ne_of_lt inMinute)]
      exact of?_eq_some_iff.mpr ⟨rfl, rfl, rfl, rfl, nanos, fun leap => absurd leap ordinary⟩
    · have leap : t.InLeapSecond := Nat.le_of_eq nanos.symm
      rw [shownSecond_of_leap leap, if_pos rfl]
      exact of?_eq_some_iff.mpr ⟨rfl, rfl, rfl, last, nanos, fun _ => last⟩

theorem shown_bounds (t : Timestamp) :
    t.date.month < 100 ∧ t.date.day < 100 ∧ t.hour < 100 ∧ t.minute < 100 ∧ t.shownSecond < 100 := by
  have month := t.date.month_bounds
  have day := Nat.le_trans t.date.day_le (Date.daysInMonth_le _ _)
  have inDay := t.second_lt
  refine ⟨by omega, by omega, ?_, ?_, ?_⟩
  · simp only [Timestamp.hour]
    omega
  · simp only [Timestamp.minute]
    omega
  · simp only [shownSecond, secondOfMinute]
    split <;> omega

/-- A text names a reading exactly when a stamp can tell the reading and the reading is written so. -/
theorem ofStamp?_eq_some_iff {text : Text} {t : Timestamp} :
    ofStamp? text = some t ↔ t.stamp = text ∧ t.IsWhole := by
  constructor
  · intro read
    unfold ofStamp? at read
    split at read
    · simp only [bind, Option.bind_eq_some_iff, Decimal.read?_two_iff, Decimal.read?_four_iff] at read
      obtain ⟨year, ⟨fourDigits, y⟩, month, ⟨_, m⟩, day, ⟨_, d⟩, hour, ⟨_, h⟩, minute, ⟨_, n⟩, second, ⟨_, s⟩,
        named⟩ := read
      obtain ⟨⟨yearSame, rfl, rfl⟩, rfl, rfl, rfl, nanos⟩ := ofNumbers?_eq_some_iff.mp named
      refine ⟨?_, ⟨by omega, by omega⟩, nanos⟩
      rw [stamp, yearSame, Int.toNat_natCast, ← y, ← m, ← d, ← h, ← n, ← s]
      rfl
    · contradiction
  · rintro ⟨rfl, ⟨notBefore, fourDigits⟩, nanos⟩
    obtain ⟨month, day, hour, minute, second⟩ := t.shown_bounds
    have read : ofStamp? t.stamp = ofNumbers? t.date.year.toNat t.date.month t.date.day t.hour t.minute t.shownSecond := by
      have year := Decimal.read?_four_iff.mpr ⟨(by omega : t.date.year.toNat < 10000), rfl⟩
      have two : ∀ {n : Nat}, n < 100 → Decimal.read? (Decimal.writeTwo n) = some n :=
        fun small => Decimal.read?_two_iff.mpr ⟨small, rfl⟩
      have pair : ∀ n, [Decimal.digitChar (n / 10 % 10), Decimal.digitChar (n % 10)] = Decimal.writeTwo n := fun _ => rfl
      simp only [stamp, Decimal.writeTwo, List.cons_append, List.nil_append, ofStamp?, bind]
      rw [year]
      simp only [pair, two month, two day, two hour, two minute, two second, Option.bind_some]
    rw [read]
    exact ofNumbers?_eq_some_iff.mpr ⟨⟨by omega, rfl, rfl⟩, rfl, rfl, rfl, nanos⟩

end Timestamp

end Cadence
