import Cadence.Proofs.Pacing.Range

/-!
What a pacer does along a run of offers, for steps of any length and either sign. It knows the first sample and it is
due as many steps later as samples have been taken (`Pacer.Reaches`); an offer comes to one of three things, of which
only a taking moves it on (`Pacer.Reaches.offer_cases`). A sum that leaves the range of spans is met only once the
clock runs, since nothing has been taken before and a single step is always in the range. So such an offer leaves the
pacer as it was, though it starts the clock first (`Pacer.offers_invariant`).
-/

namespace Cadence

@[simp] theorem Timestamp.since_self (time : Timestamp) : time.since time = Span.zero := by
  apply Span.ext_nanoseconds
  simp [since, nanosecondsSince, faceCorrection, Span.zero]

theorem Span.add?_eq_none_iff {a b : Span} : a.add? b = none ↔ ¬ InRange (a.nanoseconds + b.nanoseconds) := by
  rw [add?, ofNanoseconds?_eq_none, InRange]
  omega

namespace Pacer

theorem after_append (first second : List Sample) : ∀ pacer : Pacer,
    pacer.after (first ++ second) = (pacer.after first).after second := by
  induction first with
  | nil => intro pacer; rfl
  | cons sample rest ih => intro pacer; exact ih _

theorem verdicts_append (first second : List Sample) : ∀ pacer : Pacer,
    pacer.verdicts (first ++ second) = pacer.verdicts first ++ (pacer.after first).verdicts second := by
  induction first with
  | nil => intro pacer; rfl
  | cons sample rest ih => intro pacer; exact congrArg _ (ih _)

/-! ## One offer -/

/-- The pacer has taken `count` samples since `start`, and none before there was a first one. -/
structure Reaches (pacer : Pacer) (step : Span) (start : Option Timestamp) (count : Nat) : Prop where
  keeps : pacer.Keeps step count
  started : pacer.start = start
  unused : start = none → count = 0

theorem new_reaches (step : Span) : (new step).Reaches step none 0 :=
  ⟨new_keeps step, rfl, fun _ => rfl⟩

section
variable {step : Span} {pacer : Pacer} {start : Option Timestamp} {count : Nat}

theorem Reaches.offer_first (reaches : pacer.Reaches step none count) (sample : Sample) :
    ∃ after, pacer.offer sample = (.taken (Row.ofSample sample.time sample), after) ∧
      after.Reaches step (some sample.time) (count + 1) := by
  obtain ⟨⟨rfl, due⟩, started, unused⟩ := reaches
  obtain rfl := unused rfl
  have atZero : pacer.due.nanoseconds = 0 := by simpa using due
  have notEarly : ¬ sample.time.since sample.time < pacer.due := by
    rw [Timestamp.since_self]
    show ¬ (0 : Int) < pacer.due.nanoseconds
    omega
  have sum : pacer.due.add? pacer.step = some pacer.step := by
    rw [Span.add?, atZero, Int.zero_add]
    exact Span.ofNanoseconds?_self _
  refine ⟨{ pacer with start := some sample.time, due := pacer.step }, ?_, ⟨rfl, ?_⟩, rfl, by simp⟩
  · rw [offer, started, Option.getD_none, if_neg notEarly, sum]
    rfl
  · simp

/-- All that an offer can come to, whatever the step: it is held before it is due, taken when it is due and the sum
stays in the range, and an overflow otherwise. The pacer moves on only where it is taken. -/
theorem Reaches.offer_cases (reaches : pacer.Reaches step start count) (sample : Sample) :
    ((sample.time.since (start.getD sample.time)).nanoseconds < count * step.nanoseconds ∧
      pacer.offer sample = (.held, pacer) ∧ start ≠ none) ∨
    (count * step.nanoseconds ≤ (sample.time.since (start.getD sample.time)).nanoseconds ∧
      Span.InRange ((count + 1 : Nat) * step.nanoseconds) ∧
      ∃ after, pacer.offer sample = (.taken (Row.ofSample (start.getD sample.time) sample), after) ∧
        after.Reaches step (some (start.getD sample.time)) (count + 1)) ∨
    (count * step.nanoseconds ≤ (sample.time.since (start.getD sample.time)).nanoseconds ∧
      ¬ Span.InRange ((count + 1 : Nat) * step.nanoseconds) ∧ pacer.offer sample = (.overflow, pacer) ∧
      start ≠ none) := by
  have next : ((count + 1 : Nat) : Int) * step.nanoseconds = count * step.nanoseconds + step.nanoseconds := by
    rw [Int.natCast_add, Int.add_mul]
    omega
  cases start with
  | none =>
    obtain ⟨after, taken, moved⟩ := reaches.offer_first sample
    obtain rfl := reaches.unused rfl
    refine .inr (.inl ⟨?_, ?_, after, taken, moved⟩)
    · simp [Span.zero]
    · simpa using ⟨step.lower, step.upper⟩
  | some first =>
    obtain ⟨⟨rfl, due⟩, started, _⟩ := reaches
    -- the clock runs already, so that starting it changes nothing
    have running : { pacer with start := some first } = pacer := by
      rw [← started]
    rw [Option.getD_some, offer, started, Option.getD_some, next, ← due]
    by_cases early : sample.time.since first < pacer.due
    · rw [if_pos early, running]
      exact .inl ⟨early, rfl, by simp⟩
    · have reached : pacer.due.nanoseconds ≤ (sample.time.since first).nanoseconds := Int.not_lt.mp early
      rw [if_neg early]
      cases sum : pacer.due.add? pacer.step with
      | none => exact .inr (.inr ⟨reached, Span.add?_eq_none_iff.mp sum, congrArg _ running, by simp⟩)
      | some later =>
        have total : later.nanoseconds = pacer.due.nanoseconds + pacer.step.nanoseconds :=
          Span.ofNanoseconds?_nanoseconds sum
        refine .inr (.inl ⟨reached, total ▸ ⟨later.lower, later.upper⟩, _, rfl, ⟨rfl, ?_⟩, rfl, by simp⟩)
        rw [next, ← due]
        exact total

end

/-! ## Runs of offers -/

/-- Along a run the clock runs from the first sample, and the schedule counts the samples that are taken. -/
theorem Reaches.after {step : Span} (samples : List Sample) :
    ∀ {pacer : Pacer} {start : Option Timestamp} {count : Nat}, pacer.Reaches step start count →
      (pacer.after samples).Reaches step (start.or (samples.head?.map Sample.time))
        (count + (pacer.verdicts samples).countP Verdict.isTaken) := by
  induction samples with
  | nil =>
    intro pacer start count reaches
    simpa [Pacer.after, verdicts] using reaches
  | cons sample rest ih =>
    intro pacer start count reaches
    rw [verdicts, Pacer.after, List.countP_cons, List.head?_cons, Option.map_some]
    obtain ⟨_, held, running⟩ | ⟨_, _, after, taken, moved⟩ | ⟨_, _, overflows, running⟩ := reaches.offer_cases sample
    · obtain ⟨first, rfl⟩ := Option.ne_none_iff_exists'.mp running
      rw [held, if_neg (by simp [Verdict.isTaken]), Nat.add_zero]
      exact ih reaches
    · have clock : start.or (some sample.time) = some (start.getD sample.time) := by cases start <;> rfl
      rw [taken, if_pos (by rfl), Nat.add_comm _ 1, ← Nat.add_assoc, clock]
      exact ih moved
    · obtain ⟨first, rfl⟩ := Option.ne_none_iff_exists'.mp running
      rw [overflows, if_neg (by simp [Verdict.isTaken]), Nat.add_zero]
      exact ih reaches

/-- After an offer that does not move the pacer all goes on as if it had not been made. -/
theorem goes_on_of_unmoved {pacer : Pacer} {samples : List Sample} {sample : Sample} {verdict : Verdict}
    (unmoved : (pacer.after samples).offer sample = (verdict, pacer.after samples)) (rest : List Sample) :
    pacer.after (samples ++ sample :: rest) = pacer.after (samples ++ rest) ∧
      ∃ later, pacer.verdicts (samples ++ rest) = pacer.verdicts samples ++ later ∧
        pacer.verdicts (samples ++ sample :: rest) = pacer.verdicts samples ++ verdict :: later := by
  refine ⟨?_, (pacer.after samples).verdicts rest, verdicts_append samples rest pacer, ?_⟩
  · rw [after_append, after_append, after, unmoved]
  · rw [verdicts_append, verdicts, unmoved]

/-- What a run of offers leaves of a new pacer, and what one more offer comes to, whatever the step and the samples. The
clock runs from the first sample, and the schedule is as many steps on as samples were taken. The first sample is taken
with no time elapsed; a sample is held unless it is due, and is an overflow if it is due and one more step leaves the
range. Where a sample is not taken, all goes on as if it had not been offered. -/
theorem offers_invariant (step : Span) (samples : List Sample) :
    let pacer := (new step).after samples
    let count := ((new step).verdicts samples).countP Verdict.isTaken
    pacer.step = step ∧ pacer.start = samples.head?.map Sample.time ∧
      pacer.due.nanoseconds = count * step.nanoseconds ∧
      ∀ sample,
        let row := Row.ofSample (pacer.start.getD sample.time) sample
        let verdict := (pacer.offer sample).1
        (samples = [] → verdict = .taken row ∧ row.elapsed = Span.zero) ∧
        (verdict = .held ∨ verdict = .overflow ∨ verdict = .taken row) ∧
        (verdict = .held ↔ row.elapsed.nanoseconds < count * step.nanoseconds) ∧
        (verdict = .overflow ↔ count * step.nanoseconds ≤ row.elapsed.nanoseconds ∧
          ¬ Span.InRange ((count + 1 : Nat) * step.nanoseconds)) ∧
        (verdict = .held ∨ verdict = .overflow → (pacer.offer sample).2 = pacer ∧ ∀ rest,
          (new step).after (samples ++ sample :: rest) = (new step).after (samples ++ rest) ∧
          ∃ later, (new step).verdicts (samples ++ rest) = (new step).verdicts samples ++ later ∧
            (new step).verdicts (samples ++ sample :: rest) = (new step).verdicts samples ++ verdict :: later) := by
  intro pacer count
  have reaches : pacer.Reaches step (samples.head?.map Sample.time) count := by
    simpa using (new_reaches step).after samples
  refine ⟨reaches.keeps.1, reaches.started, reaches.keeps.2, ?_⟩
  intro sample row verdict
  have first : samples = [] → row.elapsed = Span.zero := by
    rintro rfl
    exact Timestamp.since_self sample.time
  have offered := reaches.offer_cases sample
  rw [← reaches.started] at offered
  obtain ⟨early, held, running⟩ | ⟨due, inRange, after, taken, _⟩ | ⟨due, outside, overflows, running⟩ := offered
  · have is : verdict = .held := congrArg Prod.fst held
    refine ⟨?_, .inl is, ⟨fun _ => early, fun _ => is⟩, ?_, ?_⟩
    · rintro rfl
      exact absurd rfl running
    · rw [is]
      exact ⟨Verdict.noConfusion, fun reached => absurd early (Int.not_lt.mpr reached.1)⟩
    · intro _
      rw [is]
      exact ⟨congrArg Prod.snd held, goes_on_of_unmoved held⟩
  · have is : verdict = .taken row := congrArg Prod.fst taken
    rw [is]
    refine ⟨fun none => ⟨rfl, first none⟩, .inr (.inr rfl), ?_, ?_, ?_⟩
    · exact ⟨Verdict.noConfusion, fun early => absurd early (Int.not_lt.mpr due)⟩
    · exact ⟨Verdict.noConfusion, fun reached => absurd inRange reached.2⟩
    · rintro (is | is) <;> cases is
  · have is : verdict = .overflow := congrArg Prod.fst overflows
    refine ⟨?_, .inr (.inl is), ?_, ⟨fun _ => ⟨due, outside⟩, fun _ => is⟩, ?_⟩
    · rintro rfl
      exact absurd rfl running
    · rw [is]
      exact ⟨Verdict.noConfusion, fun early => absurd early (Int.not_lt.mpr due)⟩
    · intro _
      rw [is]
      exact ⟨congrArg Prod.snd overflows, goes_on_of_unmoved overflows⟩

/-- The longest step back: the sample that is offered again is due, and the sum leaves the range. -/
theorem offers_invariant_of_longest_step_back :
    let step : Span := ⟨-Span.limit, by decide, by decide⟩
    let sample : Sample := ⟨"2018-08-13 23:59:60".toList,
      ⟨⟨2018, 8, 13, by decide, by decide, by decide, by decide⟩, 86399, 1000000000, by decide, by decide⟩,
      "1".toList⟩
    let pacer := (new step).after [sample]
    pacer.start = some sample.time ∧ pacer.due = step ∧ pacer.offer sample = (.overflow, pacer) := by
  intro step sample pacer
  obtain ⟨_, started, due, offers⟩ := offers_invariant step [sample]
  obtain ⟨_, _, _, overflows, unmoved⟩ := offers sample
  have is : (pacer.offer sample).1 = .overflow := by
    refine overflows.mpr ⟨by decide +kernel, ?_⟩
    rw [Span.InRange]
    decide +kernel
  have once : ((new step).verdicts [sample]).countP Verdict.isTaken = 1 := by decide +kernel
  rw [once, Int.natCast_one, Int.one_mul] at due
  have stays := (unmoved (.inr is)).1
  clear_value step sample
  exact ⟨started, Span.ext_nanoseconds due, Prod.ext is stays⟩

end Pacer

end Cadence
