import Cadence.Settings

/-!
The schedule that a pacer keeps. With a positive step, the next sample is always due as many steps after the
first one as samples have been taken (`Pacer.Keeps`), and no sum leaves the range of spans. So the samples
taken are told by a rule that speaks of the elapsed times alone (`IsSelection`), and only one choice obeys it
(`isSelection_iff`). The step of accepted settings is positive (`Settings.step_pos_of_ofOptions`).
-/

namespace Cadence

/-! ## The rule -/

/-- A choice among elapsed times, after `count` others have been selected: each one is selected exactly when it
has reached as many steps as were selected before it. -/
def IsSelection (step : Span) (count : Nat) (elapsed : List Span) (selected : List Bool) : Prop :=
  selected.length = elapsed.length ∧ ∀ i span, elapsed[i]? = some span → (selected[i]? = some true ↔
    ((count + (selected.take i).count true : Nat) : Int) * step.nanoseconds ≤ span.nanoseconds)

/-- The choice by that rule. -/
def select (step : Span) (count : Nat) : List Span → List Bool
  | [] => []
  | span :: rest =>
    if count * step.nanoseconds ≤ span.nanoseconds then true :: select step (count + 1) rest
    else false :: select step count rest

/-- What a choice picks out of a list. -/
def picked {α : Type} (all : List α) (selected : List Bool) : List α :=
  (all.zip selected).filterMap fun pair => if pair.2 then some pair.1 else none

theorem picked_cons {α : Type} (x : α) (rest : List α) (kept : List Bool) :
    picked (x :: rest) kept = (if kept[0]? = some true then [x] else []) ++ picked rest kept.tail := by
  cases kept with
  | nil => simp [picked]
  | cons flag flags => cases flag <;> simp [picked]

theorem length_picked {α : Type} (selected : List Bool) : ∀ {all : List α}, selected.length = all.length →
    (picked all selected).length = selected.count true := by
  induction selected with
  | nil => intro all _; simp [picked]
  | cons flag flags ih =>
    intro all same
    obtain ⟨x, rest, rfl⟩ := List.exists_cons_of_length_eq_add_one same.symm
    have inner := ih (show flags.length = rest.length by simpa using same)
    cases flag <;> simpa [picked] using inner

/-- The first place tells its own flag, the others obey the rule for what follows. -/
private theorem isSelection_cons_iff {step span : Span} {count : Nat} {rest : List Span} {flag : Bool}
    {flags : List Bool} : IsSelection step count (span :: rest) (flag :: flags) ↔
      (flag = true ↔ count * step.nanoseconds ≤ span.nanoseconds) ∧
        IsSelection step (count + (if flag then 1 else 0)) rest flags := by
  constructor
  · rintro ⟨same, rule⟩
    refine ⟨by simpa using rule 0 span rfl, by simpa using same, ?_⟩
    intro i other inside
    have here := rule (i + 1) other (by simpa using inside)
    cases flag <;> simpa [Nat.add_comm, Nat.add_left_comm, Nat.add_assoc] using here
  · rintro ⟨first, same, rule⟩
    refine ⟨by simpa using same, ?_⟩
    intro i other inside
    cases i with
    | zero =>
      obtain rfl := Option.some.inj inside
      simpa using first
    | succ i =>
      have here := rule i other (by simpa using inside)
      cases flag <;> simpa [Nat.add_comm, Nat.add_left_comm, Nat.add_assoc] using here

theorem isSelection_iff {step : Span} (elapsed : List Span) : ∀ {count : Nat} {selected : List Bool},
    IsSelection step count elapsed selected ↔ selected = select step count elapsed := by
  induction elapsed with
  | nil => intro count selected; simp [IsSelection, select]
  | cons span rest ih =>
    intro count selected
    cases selected with
    | nil =>
      constructor
      · rintro ⟨same, _⟩
        contradiction
      · intro same
        unfold select at same
        split at same <;> contradiction
    | cons flag flags =>
      rw [isSelection_cons_iff, ih, select]
      by_cases due : count * step.nanoseconds ≤ span.nanoseconds
      · rw [if_pos due]
        cases flag <;> simp [due]
      · rw [if_neg due]
        cases flag <;> simp [due]

/-! ## The pacer -/

namespace Timestamp

/-- No reading is farther from another than half the range of spans. -/
theorem nanosecondsSince_le_half (later earlier : Timestamp) : 2 * nanosecondsSince later earlier ≤ Span.limit := by
  have laterDay := later.date.dayNumber_upper
  have earlierDay := earlier.date.dayNumber_lower
  have laterSecond := later.second_lt
  have laterNano := later.nanosecond_lt
  have correction := (faceCorrection_bounds later earlier).2
  simp only [nanosecondsSince, Span.limit, nanosecondsPerSecond]
  omega

end Timestamp

theorem Span.exists_add? {a b : Span} (first : 0 ≤ a.nanoseconds) (second : 0 ≤ b.nanoseconds)
    (inRange : a.nanoseconds + b.nanoseconds ≤ limit) :
    ∃ sum, a.add? b = some sum ∧ sum.nanoseconds = a.nanoseconds + b.nanoseconds := by
  have lowest := zero.lower
  have lower : -limit ≤ a.nanoseconds + b.nanoseconds := by
    simp only [zero] at lowest
    omega
  exact ⟨⟨_, lower, inRange⟩, ofNanoseconds?_self ⟨_, lower, inRange⟩, rfl⟩

namespace Pacer

/-- The pacer has taken `count` samples: the next one is due as many steps after the first. -/
def Keeps (pacer : Pacer) (step : Span) (count : Nat) : Prop :=
  pacer.step = step ∧ pacer.due.nanoseconds = count * step.nanoseconds

theorem new_keeps (step : Span) : (new step).Keeps step 0 := by
  refine ⟨rfl, ?_⟩
  simp [new, Span.zero]

/-- A sample that is due is taken, and the sum of the schedule stays within the range. -/
theorem offer_of_due {pacer : Pacer} {step : Span} {count : Nat} (sample : Sample) {start : Timestamp}
    (keeps : pacer.Keeps step count) (positive : 0 < step.nanoseconds) (started : pacer.start.getD sample.time = start)
    (due : count * step.nanoseconds ≤ (sample.time.since start).nanoseconds) :
    ∃ after, pacer.offer sample = (.taken ⟨sample.stamp, sample.time.since start, sample.height⟩, after) ∧
      after.start = some start ∧ after.Keeps step (count + 1) := by
  obtain ⟨sameStep, sameDue⟩ := keeps
  have notHeld : ¬ sample.time.since start < pacer.due := by
    show ¬ (sample.time.since start).nanoseconds < pacer.due.nanoseconds
    omega
  have half : 2 * (sample.time.since start).nanoseconds ≤ Span.limit :=
    Timestamp.nanosecondsSince_le_half sample.time start
  have inRange : pacer.due.nanoseconds + step.nanoseconds ≤ Span.limit := by
    cases count with
    | zero =>
      have longest := step.upper
      omega
    | succ taken =>
      have atLeast : step.nanoseconds ≤ pacer.due.nanoseconds := by
        rw [sameDue, Int.natCast_add, Int.add_mul]
        have := Int.mul_nonneg (Int.natCast_nonneg taken) (Int.le_of_lt positive)
        omega
      omega
  have notNegative : 0 ≤ pacer.due.nanoseconds := by
    rw [sameDue]
    exact Int.mul_nonneg (Int.natCast_nonneg count) (Int.le_of_lt positive)
  obtain ⟨due, sum, total⟩ := Span.exists_add? notNegative (sameStep ▸ Int.le_of_lt positive) (sameStep ▸ inRange)
  refine ⟨⟨pacer.step, some start, due⟩, ?_, rfl, sameStep, ?_⟩
  · rw [offer, started, if_neg notHeld, sum]
  · show due.nanoseconds = ((count + 1 : Nat) : Int) * step.nanoseconds
    rw [total, sameDue, sameStep, Int.natCast_add, Int.add_mul]
    omega

/-- A sample that is not due is held, and starts the clock if none has. -/
theorem offer_of_early {pacer : Pacer} {step : Span} {count : Nat} (sample : Sample) {start : Timestamp}
    (keeps : pacer.Keeps step count) (started : pacer.start.getD sample.time = start)
    (early : ¬ count * step.nanoseconds ≤ (sample.time.since start).nanoseconds) :
    pacer.offer sample = (.held, { pacer with start := some start }) := by
  have held : sample.time.since start < pacer.due := by
    show (sample.time.since start).nanoseconds < pacer.due.nanoseconds
    rw [keeps.2]
    omega
  rw [offer, started, if_pos held]

end Pacer

/-! ## Accepted steps -/

theorem Interval.unit_pos (text : Text) : 0 < (cutUnit text).2 := by
  unfold cutUnit
  cases named : text.getLast?.bind unit? with
  | none => exact Nat.one_pos
  | some seconds =>
    obtain ⟨c, _, unit⟩ := Option.bind_eq_some_iff.mp named
    show 0 < seconds
    unfold unit? at unit
    split at unit <;> simp only [Option.some.injEq, reduceCtorEq] at unit <;> omega

theorem Interval.seconds_of_read? {text : Text} {span : Span} (accepted : read? text = some span) :
    ∃ seconds : Nat, 1 ≤ seconds ∧ span.nanoseconds = seconds * nanosecondsPerSecond := by
  unfold read? at accepted
  have unit := unit_pos text
  cases counted : count? (cutUnit text).1 with
  | none => simp [counted] at accepted
  | some count =>
    simp only [counted] at accepted
    split at accepted
    · contradiction
    · rename_i something
      exact ⟨_, Nat.mul_pos (Nat.pos_of_ne_zero something) unit, Span.ofNanoseconds?_nanoseconds accepted⟩

theorem Interval.nanoseconds_pos_of_read? {text : Text} {span : Span} (accepted : read? text = some span) :
    0 < span.nanoseconds := by
  obtain ⟨seconds, positive, same⟩ := seconds_of_read? accepted
  rw [same]
  exact Int.mul_pos (by exact_mod_cast positive) (by decide)

theorem Interval.read?_of_read {text : Text} {step : Span} (accepted : read text = .ok step) : read? text = some step := by
  unfold read at accepted
  split at accepted
  · contradiction
  · rename_i span found
    rw [found, Except.ok.inj accepted]

theorem Interval.nanoseconds_pos_of_read {text : Text} {step : Span} (accepted : read text = .ok step) :
    0 < step.nanoseconds :=
  nanoseconds_pos_of_read? (read?_of_read accepted)

theorem Settings.step_pos_of_ofOptions {options : Text} {settings : Settings}
    (accepted : ofOptions options = .ok settings) : 0 < settings.step.nanoseconds := by
  unfold ofOptions at accepted
  split at accepted
  · contradiction
  · rename_i assignment _
    unfold ofAssignment Interval.read at accepted
    cases read : Interval.read? (effective assignment .interval) with
    | none => simp [read] at accepted
    | some step =>
      have positive := Interval.nanoseconds_pos_of_read? read
      simp only [read] at accepted
      split at accepted
      · contradiction
      · split at accepted
        · contradiction
        · obtain rfl := Except.ok.inj accepted
          exact positive

theorem Job.step_pos_of_ofArguments {command input output options : Text} {job : Job}
    (accepted : Job.ofArguments command input output options = .ok job) : 0 < job.settings.step.nanoseconds := by
  unfold ofArguments at accepted
  split at accepted
  · contradiction
  · rename_i settings read
    obtain rfl := Except.ok.inj accepted
    exact Settings.step_pos_of_ofOptions read

end Cadence
