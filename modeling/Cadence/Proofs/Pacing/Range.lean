import Cadence.Proofs.Pacing.Offers
import Cadence.Proofs.Sampling.Grammar
import Cadence.Proofs.Time.Chronology

/-!
The numbers of a conversion stay in their ranges. Neither the time since the start nor the sum that makes the next
sample due leaves the range of spans, whatever samples are offered and in whatever order, and the rows that go to the
table are whole seconds after the start (`Settings.conversion_exact`). An offer keeps the schedule and a start that a
stamp can tell (`Pacer.Steady`); the rest follows along the pass.
-/

namespace Cadence

/-! ## Whole seconds -/

/-- A number of nanoseconds that a span can have. -/
def Span.InRange (nanoseconds : Int) : Prop :=
  -limit ≤ nanoseconds ∧ nanoseconds ≤ limit

/-- A whole number of seconds, none of them negative: counting the seconds leaves nothing out. -/
def Span.IsWholeSeconds (span : Span) : Prop :=
  ∃ seconds : Nat, span.nanoseconds = seconds * nanosecondsPerSecond ∧ span.wholeSeconds = seconds ∧ span.fraction = 0

theorem Span.isWholeSeconds_of_nonneg {span : Span} {seconds : Int} (notNegative : 0 ≤ span.nanoseconds)
    (whole : span.nanoseconds = seconds * nanosecondsPerSecond) : span.IsWholeSeconds := by
  have count : ((seconds.toNat : Nat) : Int) = seconds := by
    rw [whole, nanosecondsPerSecond] at notNegative
    omega
  refine ⟨seconds.toNat, ?_, ?_, ?_⟩
  · rw [count, whole]
  · rw [count, wholeSeconds, whole]
    exact Int.mul_tdiv_cancel _ (by decide)
  · rw [fraction, whole]
    exact Int.mul_tmod_left _ _

theorem Sample.isWhole_of_ofLine {number : Nat} {line : Text} {sample : Sample}
    (read : ofLine number line = .ok (some sample)) : sample.time.IsWhole :=
  (Timestamp.ofStamp?_eq_some_iff.mp (ofStamp?_of_ofLine read)).2

theorem Sample.ofLine_ne_overflow (number : Nat) (line : Text) : ofLine number line ≠ .error .overflow := by
  unfold ofLine
  split
  · simp
  · split <;> simp

/-! ## Offers -/

namespace Pacer

section
variable {step : Span} {pacer : Pacer} {count : Nat}

/-- The sum that makes the next sample due stays within the range where a sample is due. -/
theorem Keeps.sum_inRange (keeps : pacer.Keeps step count) (positive : 0 < step.nanoseconds) (sample : Sample)
    (due : ¬ sample.time.since (pacer.start.getD sample.time) < pacer.due) :
    Span.InRange (pacer.due.nanoseconds + pacer.step.nanoseconds) := by
  have reached : count * step.nanoseconds ≤ (sample.time.since (pacer.start.getD sample.time)).nanoseconds := by
    rw [← keeps.2]
    exact Int.not_lt.mp due
  obtain ⟨after, _, _, _, next⟩ := offer_of_due sample keeps positive rfl reached
  have sum : after.due.nanoseconds = pacer.due.nanoseconds + pacer.step.nanoseconds := by
    rw [next, keeps.1, keeps.2, Int.natCast_add, Int.add_mul]
    omega
  exact sum ▸ ⟨after.due.lower, after.due.upper⟩

theorem Keeps.offer_ne_overflow (keeps : pacer.Keeps step count) (positive : 0 < step.nanoseconds) (sample : Sample) :
    (pacer.offer sample).1 ≠ .overflow := by
  obtain ⟨_, after, taken, _⟩ | ⟨_, after, held, _⟩ := keeps.offer_cases positive sample
  · simp [taken]
  · simp [held]

/-- The schedule is kept, and the start of the clock is one that a stamp can tell. -/
structure Steady (pacer : Pacer) (step : Span) (count : Nat) : Prop where
  keeps : pacer.Keeps step count
  whole : ∀ start, pacer.start = some start → start.IsWhole

theorem new_steady (step : Span) : (new step).Steady step 0 :=
  ⟨new_keeps step, by simp [new]⟩

/-- A sample whose time a stamp can tell makes a row of whole seconds, or none, and the pacer stays steady. -/
theorem Steady.offer_cases (steady : pacer.Steady step count) (positive : 0 < step.nanoseconds) {sample : Sample}
    (whole : sample.time.IsWhole) :
    (∃ row after, pacer.offer sample = (.taken row, after) ∧ row.elapsed.IsWholeSeconds ∧
      after.Steady step (count + 1)) ∨
    ∃ after, pacer.offer sample = (.held, after) ∧ after.Steady step count := by
  have wholeStart : (pacer.start.getD sample.time).IsWhole := by
    cases started : pacer.start with
    | none => exact whole
    | some start => exact steady.whole start started
  have wholeAfter : ∀ after : Pacer, after.start = some (pacer.start.getD sample.time) →
      ∀ start, after.start = some start → start.IsWhole := by
    intro after started start same
    exact Option.some.inj (started.symm.trans same) ▸ wholeStart
  obtain ⟨due, after, taken, started, keeps⟩ | ⟨_, after, held, started, keeps⟩ :=
    steady.keeps.offer_cases positive sample
  · refine .inl ⟨_, after, taken, ?_, keeps, wholeAfter after started⟩
    refine Span.isWholeSeconds_of_nonneg ?_ (Timestamp.nanosecondsSince_of_isWhole whole wholeStart)
    exact Int.le_trans (Int.mul_nonneg (Int.natCast_nonneg count) (Int.le_of_lt positive)) due
  · exact .inr ⟨after, held, keeps, wholeAfter after started⟩

end

end Pacer

/-! ## Conversions -/

/-- What goes to the table: a row of whole seconds, or a failure that is no overflow. -/
def RowRead.IsExact : RowRead → Prop
  | .ok row => row.elapsed.IsWholeSeconds
  | .error failure => failure ≠ .overflow

/-- A pass from a steady pacer gives nothing else. -/
theorem Pass.rowsOf_exact (log : Path) {step : Span} (positive : 0 < step.nanoseconds) (lines : List LineRead) :
    ∀ {pacer : Pacer} {count : Nat} (behind : Nat), pacer.Steady step count →
      ∀ read ∈ rowsOf log pacer behind lines, RowRead.IsExact read := by
  induction lines with
  | nil => intro pacer count behind steady read member; cases member
  | cons line rest ih =>
    intro pacer count behind steady read member
    cases line with
    | error cause =>
      rw [rowsOf, List.mem_singleton] at member
      rw [member]
      exact Failure.noConfusion
    | ok text =>
      rw [rowsOf] at member
      cases sampled : Sample.ofLine (behind + 1) text with
      | error failure =>
        simp only [sampled, List.mem_singleton] at member
        rw [member]
        rintro rfl
        exact Sample.ofLine_ne_overflow _ _ sampled
      | ok found =>
        cases found with
        | none =>
          simp only [sampled] at member
          exact ih (behind + 1) steady read member
        | some sample =>
          simp only [sampled] at member
          obtain ⟨row, after, taken, exact, steadyAfter⟩ | ⟨after, held, steadyAfter⟩ :=
            steady.offer_cases positive (Sample.isWhole_of_ofLine sampled)
          · simp only [taken, List.mem_cons] at member
            rcases member with rfl | member
            · exact exact
            · exact ih (behind + 1) steadyAfter read member
          · simp only [held] at member
            exact ih (behind + 1) steadyAfter read member

theorem Csv.writeRows_ne_overflow (path : Path) (format : ElapsedFormat) (rows : List RowRead) :
    ∀ (writer : BufferedWriter) (count : Nat), (∀ read ∈ rows, read ≠ .error .overflow) →
      (writeRows path format writer count rows).1 ≠ .error .overflow := by
  induction rows with
  | nil =>
    intro writer count _
    rw [writeRows]
    split <;> simp
  | cons read rest ih =>
    intro writer count exact
    cases read with
    | error failure => simpa [writeRows] using exact _ List.mem_cons_self
    | ok row =>
      rw [writeRows]
      split
      · simp
      · exact ih _ _ fun other member => exact other (List.mem_cons_of_mem _ member)

/-- Whatever samples are offered in a conversion, and in whatever order, the time since the start and the next time due
are in the range, and no offer overflows; the rows that go to the table are whole seconds, and no overflow ends it. -/
theorem Settings.conversion_exact (options : Text) (settings : Settings) (accepted : ofOptions options = .ok settings)
    (log target : Path) (lines : List LineRead) (sink : Csv.Sink) :
    (∀ samples sample,
      let pacer := (Pacer.new settings.step).after samples
      let start := pacer.start.getD sample.time
      Span.InRange (sample.time.nanosecondsSince start) ∧
        (¬ sample.time.since start < pacer.due → Span.InRange (pacer.due.nanoseconds + pacer.step.nanoseconds)) ∧
        (pacer.offer sample).1 ≠ .overflow) ∧
    (∀ read ∈ Pass.rowsOf log (Pacer.new settings.step) 0 lines, RowRead.IsExact read) ∧
    (settings.convertLines log target lines sink).1 ≠ .error .overflow := by
  have positive := step_pos_of_ofOptions accepted
  have exact := Pass.rowsOf_exact log positive lines 0 (Pacer.new_steady settings.step)
  refine ⟨?_, exact, ?_⟩
  · intro samples sample pacer start
    have keeps := Pacer.Keeps.after positive samples (Pacer.new_keeps settings.step)
    exact ⟨sample.time.nanosecondsSince_bounds start, keeps.sum_inRange positive sample,
      keeps.offer_ne_overflow positive sample⟩
  · rw [convertLines, Csv.writeTable]
    split
    · simp
    · refine Csv.writeRows_ne_overflow _ _ _ _ _ ?_
      rintro read member rfl
      exact exact _ member rfl

/-- The longest interval, and lines of which the last comes before the first and the second ten thousand years after
it. -/
theorem Settings.conversion_exact_at_limits :
    let settings : Settings :=
      ⟨⟨9223372036854775 * nanosecondsPerSecond, by decide, by decide⟩, .duration, ".csv".toList, ".log".toList⟩
    let lines : List LineRead := [.ok "0000-01-01 00:00:60 height=1 v".toList, .ok "9999-12-31 23:59:60 height=2 v".toList,
      .ok "0000-01-01 00:00:00 height=3 v".toList]
    ofOptions "interval=9223372036854775;elapsed=duration".toList = .ok settings ∧
      (∀ read ∈ Pass.rowsOf ⟨"debug.log".toList⟩ (Pacer.new settings.step) 0 lines, RowRead.IsExact read) ∧
      (settings.convertLines ⟨"debug.log".toList⟩ ⟨".debug.log.csv".toList⟩ lines .unlimited).1 ≠ .error .overflow := by
  intro settings lines
  have accepted : ofOptions "interval=9223372036854775;elapsed=duration".toList = .ok settings := rfl
  exact ⟨accepted, (conversion_exact _ settings accepted ⟨"debug.log".toList⟩ ⟨".debug.log.csv".toList⟩ lines .unlimited).2⟩

end Cadence
