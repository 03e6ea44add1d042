import Cadence.Proofs.Sampling.Stamps

/-!
The order of dates and of readings, and what the time since a start makes of it. Dates are in order as their day
numbers are (`Date.dayNumber_lt_iff`). The time since a start goes up with the reading, but for one case: a start
within a leap second puts a second in for every later time of day, so that 23:59:60 counts one second more than the
midnight after it (`Timestamp.FallsBack`, `Timestamp.since_lt_iff`).
-/

namespace Cadence

/-! ## Dates -/

instance : LT Date where
  lt a b := a.year < b.year ∨ a.year = b.year ∧ (a.month < b.month ∨ a.month = b.month ∧ a.day < b.day)

instance (a b : Date) : Decidable (a < b) :=
  inferInstanceAs (Decidable (a.year < b.year ∨ a.year = b.year ∧ (a.month < b.month ∨ a.month = b.month ∧ a.day < b.day)))

namespace Date

theorem daysBeforeMonth_mono (year : Int) {m n : Nat} (le : m ≤ n) :
    daysBeforeMonth year m ≤ daysBeforeMonth year n := by
  induction n with
  | zero =>
    obtain rfl := Nat.le_zero.mp le
    exact Nat.le_refl _
  | succ n ih =>
    rcases Nat.lt_or_eq_of_le le with lt | rfl
    · exact Nat.le_trans (ih (Nat.le_of_lt_succ lt)) (Nat.le_add_right _ _)
    · exact Nat.le_refl _

theorem dayNumber_le_month (date : Date) :
    date.dayNumber ≤ daysBeforeYear date.year + daysBeforeMonth date.year (date.month + 1) := by
  have inside := date.day_le
  simp only [dayNumber, daysBeforeMonth]
  omega

theorem daysBeforeYear_succ (year : Int) :
    daysBeforeYear year + daysBeforeMonth year 13 = daysBeforeYear (year + 1) := by
  have months : daysBeforeMonth year 13 = if isLeapYear year then 366 else 365 := by
    simp only [daysBeforeMonth, daysInMonth]
    cases isLeapYear year <;> rfl
  rw [months]
  simp only [isLeapYear, daysBeforeYear, Bool.and_eq_true, Bool.or_eq_true, decide_eq_true_eq]
  split <;> omega

theorem daysBeforeYear_mono {a b : Int} (le : a ≤ b) : daysBeforeYear a ≤ daysBeforeYear b := by
  simp only [daysBeforeYear]
  omega

theorem dayNumber_lt_of_lt {a b : Date} (before : a < b) : a.dayNumber < b.dayNumber := by
  have inMonth := a.dayNumber_le_month
  have first := b.day_pos
  show a.dayNumber < daysBeforeYear b.year + daysBeforeMonth b.year b.month + b.day
  obtain years | ⟨sameYear, months⟩ := before
  · have inYear := daysBeforeMonth_mono a.year (show a.month + 1 ≤ 13 from Nat.succ_le_succ a.month_bounds.2)
    have whole := daysBeforeYear_succ a.year
    have later := daysBeforeYear_mono (show a.year + 1 ≤ b.year from years)
    omega
  · obtain months | ⟨sameMonth, days⟩ := months
    · have later := daysBeforeMonth_mono b.year (show a.month + 1 ≤ b.month from months)
      rw [sameYear] at inMonth
      omega
    · rw [dayNumber, sameYear, sameMonth]
      omega

theorem lt_trichotomy (a b : Date) : a < b ∨ a = b ∨ b < a := by
  rcases Int.lt_trichotomy a.year b.year with years | sameYear | years
  · exact .inl (.inl years)
  · rcases Nat.lt_trichotomy a.month b.month with months | sameMonth | months
    · exact .inl (.inr ⟨sameYear, .inl months⟩)
    · rcases Nat.lt_trichotomy a.day b.day with days | sameDay | days
      · exact .inl (.inr ⟨sameYear, .inr ⟨sameMonth, days⟩⟩)
      · right; left
        cases a
        cases b
        simp_all
      · exact .inr (.inr (.inr ⟨sameYear.symm, .inr ⟨sameMonth.symm, days⟩⟩))
    · exact .inr (.inr (.inr ⟨sameYear.symm, .inl months⟩))
  · exact .inr (.inr (.inl years))

theorem dayNumber_lt_iff {a b : Date} : a.dayNumber < b.dayNumber ↔ a < b := by
  constructor
  · intro less
    rcases lt_trichotomy a b with before | rfl | behind
    · exact before
    · exact absurd less (Int.lt_irrefl _)
    · exact absurd (dayNumber_lt_of_lt behind) (Int.not_lt.mpr (Int.le_of_lt less))
  · exact dayNumber_lt_of_lt

end Date

/-! ## Readings -/

namespace Timestamp

instance : LE Timestamp where
  le a b := a.date < b.date ∨
    a.date = b.date ∧ (a.second < b.second ∨ a.second = b.second ∧ a.nanosecond ≤ b.nanosecond)

instance (a b : Timestamp) : Decidable (a ≤ b) :=
  inferInstanceAs (Decidable (a.date < b.date ∨
    a.date = b.date ∧ (a.second < b.second ∨ a.second = b.second ∧ a.nanosecond ≤ b.nanosecond)))

/-- The seconds from the start of year 0 that calendar and clock show. -/
def shownSeconds (t : Timestamp) : Int := t.date.dayNumber * 86400 + t.second

/-- The second of a leap second that is not shown. -/
def leap (t : Timestamp) : Int := if t.InLeapSecond then 1 else 0

theorem nanosecond_of_isWhole {t : Timestamp} (whole : t.IsWhole) :
    (t.nanosecond : Int) = t.leap * nanosecondsPerSecond := by
  rcases whole.2 with nanos | ⟨nanos, _⟩
  · have ordinary : ¬ t.InLeapSecond := by simp [InLeapSecond, nanos]
    rw [leap, if_neg ordinary, nanos]
    rfl
  · have within : t.InLeapSecond := Nat.le_of_eq nanos.symm
    rw [leap, if_pos within, nanos]
    rfl

theorem second_mod_of_isWhole {t : Timestamp} (whole : t.IsWhole) (leap : t.InLeapSecond) : t.second % 60 = 59 := by
  rcases whole.2 with nanos | ⟨_, last⟩
  · rw [InLeapSecond, nanos] at leap
    contradiction
  · exact last

/-- The seconds between two readings that stamps can tell. -/
def secondsSince (later earlier : Timestamp) : Int :=
  later.shownSeconds - earlier.shownSeconds + faceCorrection later earlier + (later.leap - earlier.leap)

theorem nanosecondsSince_of_isWhole {later earlier : Timestamp} (whole : later.IsWhole) (wholeEarlier : earlier.IsWhole) :
    nanosecondsSince later earlier = secondsSince later earlier * nanosecondsPerSecond := by
  rw [nanosecondsSince, nanosecond_of_isWhole whole, nanosecond_of_isWhole wholeEarlier, secondsSince, shownSeconds,
    shownSeconds]
  simp only [nanosecondsPerSecond]
  omega

theorem leap_cases (t : Timestamp) :
    (t.InLeapSecond ∧ t.leap = 1) ∨ (¬ t.InLeapSecond ∧ t.leap = 0) := by
  by_cases within : t.InLeapSecond
  · exact .inl ⟨within, if_pos within⟩
  · exact .inr ⟨within, if_neg within⟩

/-- A reading that is no earlier shows more seconds, or the same ones and stands no earlier in their leap second. -/
theorem shownSeconds_of_le {a b : Timestamp} (le : a ≤ b) : a.shownSeconds < b.shownSeconds ∨
    (a.shownSeconds = b.shownSeconds ∧ a.second = b.second ∧ a.leap ≤ b.leap) := by
  have inDay := a.second_lt
  obtain days | ⟨sameDay, seconds⟩ := le
  · left
    have later := Date.dayNumber_lt_iff.mpr days
    simp only [shownSeconds]
    omega
  · obtain seconds | ⟨sameSecond, nanos⟩ := seconds
    · left
      simp only [shownSeconds, sameDay]
      omega
    · right
      refine ⟨by rw [shownSeconds, shownSeconds, sameDay, sameSecond], sameSecond, ?_⟩
      rcases a.leap_cases with ⟨within, _⟩ | ⟨_, none⟩
      · have withinLater : b.InLeapSecond := Nat.le_trans within nanos
        simp only [leap, if_pos within, if_pos withinLater, Int.le_refl]
      · rw [none, leap]
        split <;> decide

/-! ## The time since a start -/

/-- Since an ordinary start, a leap second adds its second unless it stands earlier in its day than the start. -/
theorem secondsSince_of_ordinary {start : Timestamp} (ordinary : ¬ start.InLeapSecond) (t : Timestamp) :
    (start.second ≤ t.second ∧ secondsSince t start = t.shownSeconds - start.shownSeconds + t.leap) ∨
    (t.second < start.second ∧ secondsSince t start = t.shownSeconds - start.shownSeconds) := by
  have none : start.leap = 0 := if_neg ordinary
  rw [secondsSince, none, faceCorrection, if_neg (fun both => ordinary both.2)]
  rcases Nat.lt_or_ge t.second start.second with before | notBefore
  · refine .inr ⟨before, ?_⟩
    rcases t.leap_cases with ⟨within, one⟩ | ⟨without, zero⟩
    · rw [if_pos ⟨before, within⟩, one]
      omega
    · rw [if_neg (fun both => without both.2), zero]
      omega
  · refine .inl ⟨notBefore, ?_⟩
    rw [if_neg (fun both => Nat.not_lt.mpr notBefore both.1)]
    omega

/-- Since a start within a leap second, all that stands no later in its day counts a second less than that. -/
theorem secondsSince_of_leap {start : Timestamp} (within : start.InLeapSecond) (t : Timestamp) :
    (start.second < t.second ∧ secondsSince t start = t.shownSeconds - start.shownSeconds + t.leap) ∨
    (t.second = start.second ∧ secondsSince t start = t.shownSeconds - start.shownSeconds + t.leap - 1) ∨
    (t.second < start.second ∧ secondsSince t start = t.shownSeconds - start.shownSeconds - 1) := by
  have one : start.leap = 1 := if_pos within
  rw [secondsSince, one, faceCorrection]
  rcases Nat.lt_trichotomy t.second start.second with before | same | behind
  · refine .inr (.inr ⟨before, ?_⟩)
    rw [if_neg (fun both => Nat.lt_asymm before both.1)]
    rcases t.leap_cases with ⟨inside, leap⟩ | ⟨outside, leap⟩
    · rw [if_pos ⟨before, inside⟩, leap]
      omega
    · rw [if_neg (fun both => outside both.2), leap]
      omega
  · refine .inr (.inl ⟨same, ?_⟩)
    rw [if_neg (by omega), if_neg (by omega)]
    omega
  · refine .inl ⟨behind, ?_⟩
    rw [if_pos ⟨behind, within⟩]
    omega

theorem secondsSince_mono_of_ordinary {start : Timestamp} (ordinary : ¬ start.InLeapSecond) {a b : Timestamp}
    (le : a ≤ b) : secondsSince a start ≤ secondsSince b start := by
  have ordered := shownSeconds_of_le le
  have leapOfEarlier := a.leap_cases
  have leapOfLater := b.leap_cases
  have sinceEarlier := secondsSince_of_ordinary ordinary a
  have sinceLater := secondsSince_of_ordinary ordinary b
  omega

/-- Counted from a start within a leap second before the last minute of a day, the leap second at the end of a day comes
after the midnight that follows it. -/
structure FallsBack (start a b : Timestamp) : Prop where
  start_leap : start.InLeapSecond
  start_before : start.second < 86399
  leap : a.InLeapSecond
  last : a.second = 86399
  midnight : b.second = 0
  next : b.date.dayNumber = a.date.dayNumber + 1

/-- From one reading to a later one the time since a start goes back by a second where it falls back, and not at all
elsewhere. -/
theorem secondsSince_lt_iff {start : Timestamp} (whole : start.IsWhole) {a b : Timestamp} (le : a ≤ b) :
    (secondsSince b start < secondsSince a start ↔ FallsBack start a b) ∧
      secondsSince a start ≤ secondsSince b start + 1 := by
  rcases start.leap_cases with ⟨within, _⟩ | ⟨ordinary, _⟩
  · have minuteEnd := second_mod_of_isWhole whole within
    have ordered := shownSeconds_of_le le
    have inDay := a.second_lt
    have inDayOfLater := b.second_lt
    have leapOfEarlier := a.leap_cases
    have leapOfLater := b.leap_cases
    have sinceEarlier := secondsSince_of_leap within a
    have sinceLater := secondsSince_of_leap within b
    simp only [shownSeconds] at *
    refine ⟨⟨?_, ?_⟩, by omega⟩
    · intro back
      -- only a leap second has a second to lose, and it loses it to a reading that stands earlier in its day
      rcases leapOfEarlier with ⟨leap, _⟩ | ⟨_, none⟩
      · exact ⟨within, by omega, leap, by omega, by omega, by omega⟩
      · omega
    · rintro ⟨_, before, leap, last, midnight, next⟩
      have one : a.leap = 1 := if_pos leap
      omega
  · have notBack := secondsSince_mono_of_ordinary ordinary le
    refine ⟨⟨fun back => absurd back (Int.not_lt.mpr notBack), fun falls => absurd falls.start_leap ordinary⟩, ?_⟩
    omega

end Timestamp

end Cadence
