import Cadence.Proofs.Pacing.Elapsed

/-!
What a pass gives that is asked for one result after the other. The results are those of the whole pass at once, in
order, and nothing ever after (`Pass.result_eq`). They are the rows that a pacer takes of the samples on the lines
before the first one that cannot be read, or whose stamp names no real time, and then the failure that this item is
(`Pass.results_in_order`).
-/

namespace Cadence

/-- An item that ends a pass which meets it at this number, and the failure that it is: it could not be read, or it
carries a stamp that names no real time. -/
inductive LineRead.FailsAs (log : Path) (number : Nat) : LineRead → Failure → Prop
  | unread (cause : IoError) : FailsAs log number (.error cause) (.io log cause)
  | unreal {line : Text} {marked : Marked} : Marked.Carries line marked → ¬ IsReal marked.stamp →
      FailsAs log number (.ok line) (.badTimestamp number marked.stamp)

/-- How items go on behind lines that can be read, and the failure that this is: not at all, or with one that fails as
the item of this number. -/
def LineRead.EndsAs (log : Path) (number : Nat) (rest : List LineRead) (failure : Option Failure) : Prop :=
  (rest = [] ∧ failure = none) ∨
    ∃ item more cause, rest = item :: more ∧ FailsAs log number item cause ∧ failure = some cause

theorem LineRead.EndsAs.cons {log : Path} {behind : Nat} {lines : List Text} {rest : List LineRead}
    {failure : Option Failure} (ends : EndsAs log (behind + 1 + lines.length + 1) rest failure) (line : Text) :
    EndsAs log (behind + (line :: lines).length + 1) rest failure := by
  rw [List.length_cons, ← Nat.add_assoc, Nat.add_right_comm behind]
  exact ends

def Verdict.row? : Verdict → Option Row
  | .taken row => some row
  | .held => none
  | .overflow => none

namespace Pass

/-! ## One result after the other -/

/-- What a pass gives when it is asked, after it has been asked this many times. -/
def result (pass : Pass) : Nat → Option RowRead
  | 0 => pass.next.1
  | asked + 1 => pass.next.2.result asked

@[simp] theorem next_of_ended {pass : Pass} (ended : pass.ended = true) : pass.next = (none, pass) := by
  rw [next, if_pos ended]

@[simp] theorem result_of_ended {pass : Pass} (ended : pass.ended = true) (asked : Nat) : pass.result asked = none := by
  induction asked with
  | zero => rw [result, next_of_ended ended]
  | succ asked ih => rw [result, next_of_ended ended, ih]

theorem result_of_last {pass after : Pass} {read : RowRead} (gives : pass.next = (some read, after))
    (ended : after.ended = true) (asked : Nat) : pass.result asked = [read][asked]? := by
  cases asked with
  | zero => rw [result, gives]; rfl
  | succ asked => rw [result, gives, result_of_ended ended]; rfl

theorem result_congr {first second : Pass} (same : first.next = second.next) (asked : Nat) :
    first.result asked = second.result asked := by
  cases asked with
  | zero => rw [result, result, same]
  | succ asked => rw [result, result, same]

/-- The results are the rows of the whole pass, in order, and nothing after them. -/
theorem result_eq (log : Path) (lines : List LineRead) : ∀ (pacer : Pacer) (behind asked : Nat),
    result ⟨pacer, log, lines, behind, false⟩ asked = (rowsOf log pacer behind lines)[asked]? := by
  induction lines with
  | nil =>
    intro pacer behind asked
    have finished : next ⟨pacer, log, [], behind, false⟩ = (none, ⟨pacer, log, [], behind, true⟩) := rfl
    cases asked with
    | zero => rw [result, finished]; rfl
    | succ asked => rw [result, finished, result_of_ended rfl]; rfl
  | cons item rest ih =>
    intro pacer behind asked
    cases item with
    | error cause => exact result_of_last rfl rfl asked
    | ok line =>
      have goes : next ⟨pacer, log, .ok line :: rest, behind, false⟩ = advance log pacer behind (.ok line :: rest) := rfl
      rw [advance] at goes
      rw [rowsOf]
      cases read : Sample.ofLine (behind + 1) line with
      | error failure =>
        simp only [read] at goes
        exact result_of_last goes rfl asked
      | ok found =>
        cases found with
        | none =>
          simp only [read] at goes
          have same : next _ = next ⟨pacer, log, rest, behind + 1, false⟩ := goes
          rw [result_congr same]
          exact ih pacer (behind + 1) asked
        | some sample =>
          simp only [read] at goes ⊢
          cases offered : pacer.offer sample with
          | mk verdict after =>
            rw [offered] at goes
            cases verdict with
            | taken row =>
              cases asked with
              | zero => rw [result, goes]; rfl
              | succ asked =>
                rw [result, goes]
                exact ih after (behind + 1) asked
            | held =>
              have same : next _ = next ⟨after, log, rest, behind + 1, false⟩ := goes
              rw [result_congr same]
              exact ih after (behind + 1) asked
            | overflow => exact result_of_last goes rfl asked

/-! ## The rows of a pass -/

/-- A pass under a positive step gives the rows of the samples on the lines before an item that fails, and then this
failure. -/
theorem rowsOf_items (log : Path) {step : Span} (positive : 0 < step.nanoseconds) (items : List LineRead) :
    ∀ {pacer : Pacer} {count : Nat} (behind : Nat), pacer.Keeps step count →
      ∃ lines rest samples failure, items = lines.map .ok ++ rest ∧ samplesOf (markings behind lines) = (samples, none) ∧
        LineRead.EndsAs log (behind + lines.length + 1) rest failure ∧
        rowsOf log pacer behind items = Csv.rowReads ((pacer.verdicts samples).filterMap Verdict.row?) failure := by
  induction items with
  | nil =>
    intro pacer count behind keeps
    exact ⟨[], [], [], none, rfl, rfl, .inl ⟨rfl, rfl⟩, rfl⟩
  | cons item rest ih =>
    intro pacer count behind keeps
    cases item with
    | error cause =>
      exact ⟨[], .error cause :: rest, [], some (.io log cause), rfl, rfl,
        .inr ⟨_, rest, _, rfl, .unread cause, rfl⟩, rfl⟩
    | ok line =>
      rw [rowsOf, Sample.ofLine]
      cases found : Marked.ofLine? line with
      | none =>
        obtain ⟨lines, more, samples, failure, rfl, read, ends, rows⟩ := ih (behind + 1) keeps
        refine ⟨line :: lines, more, samples, failure, rfl, ?_, ends.cons line, rows⟩
        rw [markings, found]
        exact read
      | some marked =>
        simp only
        cases named : Timestamp.ofStamp? marked.stamp with
        | none =>
          have unreal : ¬ IsReal marked.stamp := fun real => isReal_iff.mp real named
          exact ⟨[], .ok line :: rest, [], some (.badTimestamp (behind + 1) marked.stamp), rfl, rfl,
            .inr ⟨_, rest, _, rfl, .unreal (Marked.ofLine?_eq_some_iff.mp found) unreal, rfl⟩, rfl⟩
        | some time =>
          simp only
          have readOn : ∀ {lines samples}, samplesOf (markings (behind + 1) lines) = (samples, none) →
              samplesOf (markings behind (line :: lines)) = (⟨marked.stamp, time, marked.height⟩ :: samples, none) := by
            intro lines samples read
            rw [markings, found]
            simp only [samplesOf, named, read]
          obtain ⟨_, after, taken, _, keepsAfter⟩ | ⟨_, after, held, _, keepsAfter⟩ :=
            keeps.offer_cases positive ⟨marked.stamp, time, marked.height⟩
          · obtain ⟨lines, more, samples, failure, rfl, read, ends, rows⟩ := ih (behind + 1) keepsAfter
            refine ⟨line :: lines, more, _, failure, rfl, readOn read, ends.cons line, ?_⟩
            rw [taken, Pacer.verdicts, taken]
            simp only [rows]
            cases failure <;> rfl
          · obtain ⟨lines, more, samples, failure, rfl, read, ends, rows⟩ := ih (behind + 1) keepsAfter
            refine ⟨line :: lines, more, _, failure, rfl, readOn read, ends.cons line, ?_⟩
            rw [held, Pacer.verdicts, held]
            exact rows

/-- A pass under an accepted step gives, when it is asked again and again, the rows that a pacer takes of the samples on
the lines before the first item that fails, in order; then, if there is such an item, its failure, once, with the log
or with the number of the item among all items and its stamp; and then nothing, whatever items there are left. -/
theorem results_in_order (text : Text) (step : Span) (accepted : Interval.read text = .ok step) (log : Path)
    (items : List LineRead) : ∃ lines rest all samples failure, items = lines.map .ok ++ rest ∧
      AreMarkings lines all ∧ AreSamples all samples ∧ LineRead.EndsAs log (lines.length + 1) rest failure ∧
      ∀ asked, (new (Pacer.new step) log items).result asked =
        (Csv.rowReads (((Pacer.new step).verdicts samples).filterMap Verdict.row?) failure)[asked]? := by
  obtain ⟨lines, rest, samples, failure, parts, read, ends, rows⟩ :=
    rowsOf_items log (Interval.nanoseconds_pos_of_read accepted) items 0 (Pacer.new_keeps step)
  rw [Nat.zero_add] at ends
  refine ⟨lines, rest, markings 0 lines, samples, failure, parts, areMarkings_markings lines,
    (areSamples_iff _).mpr read, ends, ?_⟩
  intro asked
  rw [← rows]
  exact result_eq log items (Pacer.new step) 0 asked

/-- A line without a sample, one that is taken, one that is held and one whose stamp names no real time, with an error
of reading behind them. -/
theorem results_in_order_of_five_items :
    let step := Pacer.defaultStep
    let log : Path := ⟨"debug.log".toList⟩
    let items : List LineRead := [.ok "starting".toList, .ok "2018-08-13 02:00:00 height=1 v".toList,
      .ok "2018-08-13 02:05:00 height=2 v".toList, .ok "2018-13-40 10:00:00 height=3 v".toList,
      .error ⟨.other, "gone".toList⟩]
    Interval.read "10m".toList = .ok step ∧
      ((new (Pacer.new step) log items).result 1 = some (.error (.badTimestamp 4 "2018-13-40 10:00:00".toList))) ∧
      ∃ lines rest all samples failure, items = lines.map .ok ++ rest ∧ AreMarkings lines all ∧
        AreSamples all samples ∧ LineRead.EndsAs log (lines.length + 1) rest failure ∧
        ∀ asked, (new (Pacer.new step) log items).result asked =
          (Csv.rowReads (((Pacer.new step).verdicts samples).filterMap Verdict.row?) failure)[asked]? := by
  intro step log items
  have accepted : Interval.read "10m".toList = .ok step := rfl
  have second : (new (Pacer.new step) log items).result 1 =
      some (.error (.badTimestamp 4 "2018-13-40 10:00:00".toList)) := by decide +kernel
  clear_value step log items
  exact ⟨accepted, second, results_in_order "10m".toList step accepted log items⟩

end Pass

end Cadence
