import Mathlib.Data.List.Basic
import Cadence.Proofs.Pacing.AnyStep
import Cadence.Proofs.Pacing.Earliest

/-!
Samples whose elapsed times do not fall. By the steps that a sample has reached, no more than one sample for each of them
and the first one have been taken. A sample that is held has reached fewer steps than were taken before it, so that it
finds the pacer level with the clock (`Pacer.count_taken_of_ordered`).
-/

namespace Cadence

section
variable {step : Span} {elapsed : List Span} {selected : List Bool} {place : Nat} {span : Span}

/-- No more are selected than steps reached and one. -/
theorem IsSelection.count_le (selection : IsSelection step 0 elapsed selected) (positive : 0 < step.nanoseconds)
    (ordered : elapsed.Pairwise (· ≤ ·)) (notBefore : ∀ span ∈ elapsed, 0 ≤ span.nanoseconds) :
    elapsed[place]? = some span →
      ((selected.take (place + 1)).count true : Int) ≤ span.nanoseconds / step.nanoseconds + 1 := by
  -- a place that is not selected has no more selected before it than the place before, which has reached no more steps
  induction place generalizing span with
  | zero =>
    intro inside
    have reached := Int.ediv_nonneg (notBefore span (List.mem_of_getElem? inside)) (Int.le_of_lt positive)
    have atMostOne : (selected.take (0 + 1)).count true ≤ 1 :=
      Nat.le_trans List.count_le_length (by rw [List.length_take]; omega)
    omega
  | succ place ih =>
    intro inside
    rw [count_take_succ]
    by_cases set : selected[place + 1]? = some true
    · have due := (selection.2 _ span inside).mp set
      rw [Nat.zero_add] at due
      have reached := (Int.le_ediv_iff_mul_le positive).mpr due
      rw [if_pos set]
      omega
    · obtain ⟨long, same⟩ := List.getElem?_eq_some_iff.mp inside
      have before := ih (List.getElem?_eq_getElem (Nat.lt_of_succ_lt long))
      have earlier : elapsed[place] ≤ span := same ▸ List.pairwise_iff_getElem.mp ordered _ _ _ long place.lt_succ_self
      have fewer : elapsed[place].nanoseconds / step.nanoseconds ≤ span.nanoseconds / step.nanoseconds :=
        Int.ediv_le_ediv positive earlier
      rw [if_neg set]
      omega

/-- Before a place that is not selected, more are selected than steps reached. -/
theorem IsSelection.lt_count_of_not_selected (selection : IsSelection step 0 elapsed selected)
    (positive : 0 < step.nanoseconds) (inside : elapsed[place]? = some span) (unset : selected[place]? ≠ some true) :
    span.nanoseconds / step.nanoseconds < (selected.take (place + 1)).count true := by
  have early := mt (selection.2 place span inside).mpr unset
  rw [Nat.zero_add, Int.not_le] at early
  rw [count_take_succ, if_neg unset, Nat.add_zero]
  exact (Int.ediv_lt_iff_lt_mul positive).mpr early

end

/-! ## The pacer -/

theorem Verdict.isTaken_iff {verdict : Verdict} : verdict.isTaken = true ↔ ∃ row, verdict = .taken row := by
  cases verdict <;> simp [isTaken]

theorem countP_isTaken_take (verdicts : List Verdict) (n : Nat) :
    (verdicts.take n).countP Verdict.isTaken = ((verdicts.map Verdict.isTaken).take n).count true := by
  rw [← countP_id, ← List.map_take, List.countP_map]
  rfl

theorem map_isTaken_ne_true {verdicts : List Verdict} {place : Nat}
    (notTaken : ∀ row, verdicts[place]? ≠ some (.taken row)) : (verdicts.map Verdict.isTaken)[place]? ≠ some true := by
  rw [List.getElem?_map]
  intro set
  obtain ⟨verdict, found, taken⟩ := Option.map_eq_some_iff.mp set
  obtain ⟨row, rfl⟩ := Verdict.isTaken_iff.mp taken
  exact notTaken row found

/-- A new pacer goes by the times since the first sample. -/
theorem Pacer.isTaken_new_cons {step : Span} (positive : 0 < step.nanoseconds) (first : Sample) (rest : List Sample) :
    IsSelection step 0 ((first :: rest).map fun sample => sample.time.since first.time)
      (((new step).verdicts (first :: rest)).map Verdict.isTaken) := by
  have selection := isTaken_new positive (first :: rest)
  rw [rowsSinceFirst, List.map_map] at selection
  exact selection

/-- While elapsed times do not fall, at any sample no more have been taken than the whole steps that it has reached and
one, and exactly as many if it is not taken itself. -/
theorem Pacer.count_taken_of_ordered (text : Text) (step : Span) (accepted : Interval.read text = .ok step)
    (first : Sample) (rest : List Sample)
    (ordered : (first :: rest).Pairwise fun a b => a.time.since first.time ≤ b.time.since first.time)
    (place : Nat) (sample : Sample) (offered : (first :: rest)[place]? = some sample) :
    let verdicts := (new step).verdicts (first :: rest)
    let count : Int := (verdicts.take (place + 1)).countP Verdict.isTaken
    let reached := (sample.time.since first.time).nanoseconds / step.nanoseconds
    count ≤ reached + 1 ∧ ((∀ row, verdicts[place]? ≠ some (.taken row)) → count = reached + 1) := by
  intro verdicts count reached
  have positive := Interval.nanoseconds_pos_of_read accepted
  have selection := isTaken_new_cons positive first rest
  have inside : ((first :: rest).map fun sample => sample.time.since first.time)[place]? =
      some (sample.time.since first.time) := by
    rw [List.getElem?_map, offered]
    rfl
  have notBefore : ∀ span ∈ (first :: rest).map fun sample => sample.time.since first.time, 0 ≤ span.nanoseconds := by
    have atZero : (first.time.since first.time).nanoseconds = 0 := congrArg Span.nanoseconds (Timestamp.since_self _)
    simp only [List.map_cons, List.forall_mem_cons, List.forall_mem_map]
    refine ⟨Int.le_of_eq atZero.symm, ?_⟩
    intro later member
    exact atZero ▸ List.rel_of_pairwise_cons ordered member
  have counted : count = ((verdicts.map Verdict.isTaken).take (place + 1)).count true :=
    congrArg Nat.cast (countP_isTaken_take verdicts (place + 1))
  have atMost : count ≤ reached + 1 :=
    counted ▸ selection.count_le positive (List.pairwise_map.mpr ordered) notBefore inside
  refine ⟨atMost, ?_⟩
  intro notTaken
  have more : reached < count :=
    counted ▸ selection.lt_count_of_not_selected positive inside (map_isTaken_ne_true notTaken)
  omega

/-- After a gap of 35 minutes every sample is taken until there are four, and the next one, which has reached three steps,
is held. -/
theorem Pacer.count_taken_of_ordered_after_gap :
    let sampleAt (second : Nat) (inDay : second < 86400) : Sample :=
      ⟨[], ⟨⟨2018, 8, 13, by decide, by decide, by decide, by decide⟩, second, 0, inDay, by decide⟩, []⟩
    let first := sampleAt 7200 (by decide)
    let last := sampleAt 9480 (by decide)
    let rest := [sampleAt 9300 (by decide), sampleAt 9360 (by decide), sampleAt 9420 (by decide), last]
    let verdicts := (new defaultStep).verdicts (first :: rest)
    Interval.read "10m".toList = .ok defaultStep ∧ verdicts.map Verdict.isTaken = [true, true, true, true, false] ∧
      (last.time.since first.time).nanoseconds / defaultStep.nanoseconds = 3 ∧
      (verdicts.take 5).countP Verdict.isTaken = 4 := by
  intro sampleAt first last rest verdicts
  have accepted : Interval.read "10m".toList = .ok defaultStep := rfl
  have taken : verdicts.map Verdict.isTaken = [true, true, true, true, false] := by decide +kernel
  have reached : (last.time.since first.time).nanoseconds / defaultStep.nanoseconds = 3 := by decide +kernel
  have ordered : (first :: rest).Pairwise fun a b => a.time.since first.time ≤ b.time.since first.time := by
    decide +kernel
  have held : verdicts[4]? = some .held := by decide +kernel
  have notTaken : ∀ row, verdicts[4]? ≠ some (.taken row) := by
    intro row isTaken
    rw [held] at isTaken
    cases isTaken
  have counted := (count_taken_of_ordered "10m".toList defaultStep accepted first rest ordered 4 last rfl).2 notTaken
  rw [reached] at counted
  exact ⟨accepted, taken, reached, Int.ofNat.inj counted⟩

end Cadence
