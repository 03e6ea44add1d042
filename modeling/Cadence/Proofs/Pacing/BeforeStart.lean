import Cadence.Proofs.Pacing.AnyStep

/-!
Samples that stand before the first one. The time since the first sample is negative for them, but for readings within a
leap second: the face of the clock falls behind while it lasts, so that the leap second before midnight may count as
after the midnight. It does not count a whole second after it (`Timestamp.nanosecondsSince_lt_of_lt`). As intervals are
a second long at least, and the next sample is due an interval after the first one at the earliest, none of these is
due (`Pacer.held_before_first`).
-/

namespace Cadence

/-! ## The time since a later reading -/

namespace Timestamp

instance : LT Timestamp where
  lt a b := a.date < b.date ∨
    a.date = b.date ∧ (a.second < b.second ∨ a.second = b.second ∧ a.nanosecond < b.nanosecond)

instance (a b : Timestamp) : Decidable (a < b) :=
  inferInstanceAs (Decidable (a.date < b.date ∨
    a.date = b.date ∧ (a.second < b.second ∨ a.second = b.second ∧ a.nanosecond < b.nanosecond)))

/-- Nanoseconds count on to a second, and to another one within a leap second. -/
theorem nanosecond_bounds (t : Timestamp) : t.leap * nanosecondsPerSecond ≤ t.nanosecond ∧
    (t.nanosecond : Int) < (t.leap + 1) * nanosecondsPerSecond := by
  have below := t.nanosecond_lt
  rcases t.leap_cases with ⟨within, one⟩ | ⟨ordinary, none⟩
  · rw [InLeapSecond] at within
    rw [one, nanosecondsPerSecond]
    omega
  · rw [InLeapSecond] at ordinary
    rw [none, nanosecondsPerSecond]
    omega

theorem lt_irrefl (t : Timestamp) : ¬ t < t := by
  rintro (days | ⟨_, seconds | ⟨_, nanos⟩⟩)
  · exact absurd (Date.dayNumber_lt_iff.mpr days) (Int.lt_irrefl _)
  · exact absurd seconds (Nat.lt_irrefl _)
  · exact absurd nanos (Nat.lt_irrefl _)

section
variable {t start : Timestamp}

theorem faceCorrection_of_before (before : t.second < start.second) : faceCorrection t start = -t.leap := by
  rw [faceCorrection, if_neg (fun both => Nat.lt_asymm before both.1)]
  rcases t.leap_cases with ⟨within, one⟩ | ⟨ordinary, none⟩
  · rw [if_pos ⟨before, within⟩, one]
  · rw [if_neg (fun both => ordinary both.2), none, Int.neg_zero]

theorem faceCorrection_of_behind (behind : start.second < t.second) : faceCorrection t start = start.leap := by
  rw [faceCorrection]
  rcases start.leap_cases with ⟨within, one⟩ | ⟨ordinary, none⟩
  · rw [if_pos ⟨behind, within⟩, one]
  · rw [if_neg (fun both => ordinary both.2), if_neg (fun both => Nat.lt_asymm both.1 behind), none]

theorem faceCorrection_of_same (same : t.second = start.second) : faceCorrection t start = 0 := by
  rw [faceCorrection, if_neg (by omega), if_neg (by omega)]

/-- The time since a later reading is negative, except within a leap second, where it stays below a second. -/
theorem nanosecondsSince_lt_of_lt (before : t < start) :
    nanosecondsSince t start < t.leap * nanosecondsPerSecond := by
  have inDay := t.second_lt
  have into := t.nanosecond_bounds
  have intoStart := start.nanosecond_bounds
  rw [nanosecondsSince]
  simp only [nanosecondsPerSecond] at *
  obtain days | ⟨sameDay, seconds⟩ := before
  · -- across midnight the faces may be next to each other, and a second may be put in between them
    have earlier := Date.dayNumber_lt_iff.mpr days
    rcases Nat.lt_trichotomy t.second start.second with lower | same | higher
    · rw [faceCorrection_of_before lower]
      omega
    · rw [faceCorrection_of_same same]
      omega
    · rw [faceCorrection_of_behind higher]
      omega
  · rw [sameDay]
    obtain lower | ⟨same, nanos⟩ := seconds
    · rw [faceCorrection_of_before lower]
      omega
    · rw [faceCorrection_of_same same]
      omega

end

end Timestamp

/-! ## Offers of earlier samples -/

theorem Interval.second_le_of_read {text : Text} {step : Span} (accepted : read text = .ok step) :
    nanosecondsPerSecond ≤ step.nanoseconds := by
  obtain ⟨seconds, positive, same⟩ := seconds_of_read? (read?_of_read accepted)
  rw [same, nanosecondsPerSecond]
  omega

namespace Pacer

theorem Reaches.offer_of_lt {pacer : Pacer} {step : Span} {start : Timestamp} {count : Nat}
    (reaches : pacer.Reaches step (some start) count) (taken : 1 ≤ count)
    (long : nanosecondsPerSecond ≤ step.nanoseconds) {sample : Sample} (before : sample.time < start) :
    pacer.offer sample = (.held, pacer) := by
  have early : (sample.time.since start).nanoseconds < count * step.nanoseconds := by
    have atMostOne : sample.time.leap ≤ 1 := by
      rcases sample.time.leap_cases with ⟨_, one⟩ | ⟨_, none⟩ <;> omega
    calc (sample.time.since start).nanoseconds
        < sample.time.leap * nanosecondsPerSecond := Timestamp.nanosecondsSince_lt_of_lt before
      _ ≤ 1 * step.nanoseconds := by rw [nanosecondsPerSecond] at *; omega
      _ ≤ count * step.nanoseconds :=
        Int.mul_le_mul_of_nonneg_right (by omega) (by rw [nanosecondsPerSecond] at long; omega)
  obtain ⟨_, held, _⟩ | ⟨due, _⟩ | ⟨due, _⟩ := reaches.offer_cases sample
  · exact held
  · exact absurd early (Int.not_lt.mpr due)
  · exact absurd early (Int.not_lt.mpr due)

/-- The first of the samples has been taken once there is one. -/
theorem reaches_after_first (step : Span) (first : Sample) (rest : List Sample) : ∃ count, 1 ≤ count ∧
    ((new step).after (first :: rest)).Reaches step (some first.time) count := by
  obtain ⟨next, taken, reaches⟩ := (new_reaches step).offer_first first
  rw [after, taken]
  exact ⟨_, by omega, reaches.after rest⟩

/-- The verdict on the sample at a place, and the pacer after it, are those of its offer after the samples before. -/
theorem offered_at {samples : List Sample} {place : Nat} {sample : Sample} (offered : samples[place]? = some sample)
    (pacer : Pacer) :
    (pacer.verdicts samples)[place]? = some ((pacer.after (samples.take place)).offer sample).1 ∧
      pacer.after (samples.take (place + 1)) = ((pacer.after (samples.take place)).offer sample).2 := by
  induction samples generalizing place pacer with
  | nil => cases offered
  | cons head rest ih =>
    cases place with
    | zero =>
      cases offered
      exact ⟨rfl, rfl⟩
    | succ place => exact ih offered (pacer.offer head).2

/-- Among samples that are offered to a new pacer, in whatever order and whatever their times, one that stands before the
first of them is held, and the pacer is after it what it was before it: its start is the first sample, and what is due
next stays due. -/
theorem held_before_first (text : Text) (step : Span) (accepted : Interval.read text = .ok step) (samples : List Sample)
    (first : Sample) (begins : samples.head? = some first) (place : Nat) (sample : Sample)
    (offered : samples[place]? = some sample) (before : sample.time < first.time) :
    let pacer := (new step).after (samples.take place)
    ((new step).verdicts samples)[place]? = some .held ∧ pacer.start = some first.time ∧
      (new step).after (samples.take (place + 1)) = pacer := by
  intro pacer
  obtain ⟨rest, rfl⟩ := List.head?_eq_some_iff.mp begins
  cases place with
  | zero =>
    cases offered
    exact absurd before (Timestamp.lt_irrefl _)
  | succ place =>
    obtain ⟨count, taken, reaches⟩ := reaches_after_first step first (rest.take place)
    have held : pacer.offer sample = (.held, pacer) :=
      reaches.offer_of_lt taken (Interval.second_le_of_read accepted) before
    obtain ⟨verdict, next⟩ := offered_at offered (new step)
    exact ⟨verdict.trans (by rw [held]), reaches.started, next.trans (by rw [held])⟩

/-- A sample in the leap second before the midnight of the first sample is half a second after it by the clock, and is
held even where the interval is a second. -/
theorem held_before_first_of_leap_second :
    let step : Span := ⟨nanosecondsPerSecond, by decide, by decide⟩
    let midnight : Timestamp := ⟨⟨2017, 1, 1, by decide, by decide, by decide, by decide⟩, 0, 0, by decide, by decide⟩
    let leap : Timestamp :=
      ⟨⟨2016, 12, 31, by decide, by decide, by decide, by decide⟩, 86399, 1500000000, by decide, by decide⟩
    let first : Sample := ⟨[], midnight, "1".toList⟩
    let sample : Sample := ⟨[], leap, "2".toList⟩
    Interval.read "1s".toList = .ok step ∧ leap < midnight ∧ (leap.since midnight).nanoseconds = 500000000 ∧
      ((new step).verdicts [first, sample])[1]? = some .held ∧
      (new step).after [first, sample] = (new step).after [first] := by
  intro step midnight leap first sample
  have accepted : Interval.read "1s".toList = .ok step := rfl
  have before : leap < midnight := by decide
  obtain ⟨held, _, unmoved⟩ :=
    held_before_first "1s".toList step accepted [first, sample] first rfl 1 sample rfl before
  exact ⟨accepted, before, by decide +kernel, held, unmoved⟩

end Pacer

end Cadence
