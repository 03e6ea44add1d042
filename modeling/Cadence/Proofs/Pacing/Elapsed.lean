import Cadence.Proofs.Pacing.Earliest
import Cadence.Proofs.Time.Chronology

/-!
The elapsed times of the rows of a log whose samples are in chronological order. They never go back by more than a
second, and they do not go back at all unless the first sample stands within a leap second and two rows fall back over
a midnight (`Pass.elapsed_ordered_iff`). A log in which this happens is `Pass.elapsed_falls_back`: it begins within
a leap second, and has another one at the end of a day.
-/

namespace Cadence

/-! ## The samples of a log -/

theorem AreMarkings.eq {lines : List Text} {all : List (Nat × Marked)} (markings : AreMarkings lines all) :
    all = Cadence.markings 0 lines := by
  obtain ⟨increasing, members⟩ := markings
  have distinct : ∀ {pairs : List (Nat × Marked)}, (pairs.map Prod.fst).Pairwise (· < ·) → pairs.Nodup := by
    intro pairs sorted
    exact (List.pairwise_map.mp sorted).imp fun less same => Nat.ne_of_lt less (congrArg Prod.fst same)
  have sorted := markings_increasing lines 0
  refine List.Perm.eq_of_pairwise ?_ (List.pairwise_map.mp increasing) (List.pairwise_map.mp sorted) ?_
  · intro a b _ _ less more
    exact absurd less (Nat.lt_asymm more)
  · refine (List.perm_ext_iff_of_nodup (distinct increasing) (distinct sorted)).mpr ?_
    rintro ⟨number, marked⟩
    rw [members, ← (areMarkings_markings lines).2]

/-- Markings are samples to the last exactly if they are all read. -/
theorem areSamples_iff (all : List (Nat × Marked)) : ∀ {samples : List Sample},
    AreSamples all samples ↔ samplesOf all = (samples, none) := by
  intro samples
  constructor
  · induction all generalizing samples with
    | nil =>
      rintro ⟨same, _⟩
      rw [List.length_eq_zero_iff.mp same]
      rfl
    | cons marking rest ih =>
      rintro ⟨same, reads⟩
      obtain ⟨⟨stamp, time, height⟩, others, rfl⟩ := List.exists_cons_of_length_eq_add_one same
      obtain ⟨number, marked⟩ := marking
      obtain ⟨(sameStamp : stamp = marked.stamp), (sameHeight : height = marked.height), whole, written⟩ :=
        reads (_, _) List.mem_cons_self
      subst sameStamp sameHeight
      have later := ih ⟨by simpa using same, fun pair member => reads pair (List.mem_cons_of_mem _ member)⟩
      rw [samplesOf, Timestamp.ofStamp?_eq_some_iff.mpr ⟨written, whole⟩, later]
  · intro found
    obtain ⟨read, unread, rfl, reads, next, _⟩ := samplesOf_spec all
    rw [found] at reads next
    rw [List.head?_eq_none_iff.mp next.symm, List.append_nil]
    exact reads

theorem AreSamples.isWhole {read : List (Nat × Marked)} {samples : List Sample} (reads : AreSamples read samples) :
    ∀ sample ∈ samples, sample.time.IsWhole := by
  intro sample member
  rw [← List.map_snd_zip (Nat.le_of_eq reads.1)] at member
  obtain ⟨pair, inside, rfl⟩ := List.mem_map.mp member
  exact (reads.2 pair inside).2.2.1

/-! ## What is picked -/

theorem picked_map {α β : Type} (f : α → β) (all : List α) (selected : List Bool) :
    picked (all.map f) selected = (picked all selected).map f := by
  rw [picked, picked, List.zip_map_left, List.filterMap_map, List.map_filterMap]
  congr 1
  funext pair
  obtain ⟨x, flag⟩ := pair
  cases flag <;> rfl

theorem picked_sublist {α : Type} (all : List α) : ∀ selected : List Bool, (picked all selected).Sublist all := by
  induction all with
  | nil => intro selected; exact List.Sublist.refl _
  | cons x rest ih =>
    intro selected
    cases selected with
    | nil => exact List.nil_sublist _
    | cons flag flags =>
      cases flag with
      | false => exact (ih flags).cons x
      | true => exact (ih flags).cons_cons x

/-! ## Rows in order -/

theorem Timestamp.since_lt_iff {start a b : Timestamp} (whole : start.IsWhole) (wholeEarlier : a.IsWhole)
    (wholeLater : b.IsWhole) (le : a ≤ b) :
    (b.since start < a.since start ↔ FallsBack start a b) ∧
      (a.since start).nanoseconds ≤ (b.since start).nanoseconds + nanosecondsPerSecond := by
  obtain ⟨back, bound⟩ := secondsSince_lt_iff whole le
  have sinceEarlier : (a.since start).nanoseconds = _ := nanosecondsSince_of_isWhole wholeEarlier whole
  have sinceLater : (b.since start).nanoseconds = _ := nanosecondsSince_of_isWhole wholeLater whole
  show ((b.since start).nanoseconds < (a.since start).nanoseconds ↔ _) ∧ _
  rw [sinceEarlier, sinceLater, ← back, nanosecondsPerSecond]
  omega

/-- Samples in chronological order, one of which is the first: how their times since it go. -/
theorem pairwise_since {samples : List Sample} {first : Sample} (member : first ∈ samples)
    (whole : ∀ sample ∈ samples, sample.time.IsWhole) (chronological : samples.Pairwise fun a b => a.time ≤ b.time)
    (selected : List Bool) : (picked samples selected).Pairwise fun a b =>
      (b.time.since first.time < a.time.since first.time ↔ Timestamp.FallsBack first.time a.time b.time) ∧
        (a.time.since first.time).nanoseconds ≤ (b.time.since first.time).nanoseconds + nanosecondsPerSecond := by
  have front := picked_sublist samples selected
  refine (chronological.sublist front).imp_of_mem ?_
  intro a b earlier later le
  exact Timestamp.since_lt_iff (whole first member) (whole a (front.subset earlier)) (whole b (front.subset later)) le

/-- Where all samples of a log are real and in chronological order, each row counts at most a second less than one before
it, and none counts less exactly if no two of the samples taken fall back. -/
theorem Pass.elapsed_ordered_iff (text : Text) (step : Span) (accepted : Interval.read text = .ok step) (log : Path)
    (lines : List Text) (all : List (Nat × Marked)) (samples : List Sample) (markings : AreMarkings lines all)
    (reads : AreSamples all samples) (chronological : samples.Pairwise fun a b => a.time ≤ b.time) :
    ∃ selected, IsSelection step 0 ((rowsSinceFirst samples).map Row.elapsed) selected ∧
      let rows := picked (rowsSinceFirst samples) selected
      rowsOf log (Pacer.new step) 0 (lines.map .ok) = rows.map .ok ∧
      (rows.Pairwise fun a b => a.elapsed.nanoseconds ≤ b.elapsed.nanoseconds + nanosecondsPerSecond) ∧
      ((rows.Pairwise fun a b => a.elapsed ≤ b.elapsed) ↔ ∀ first, samples.head? = some first →
        (picked samples selected).Pairwise fun a b => ¬ Timestamp.FallsBack first.time a.time b.time) := by
  have positive := Interval.nanoseconds_pos_of_read accepted
  have given := rowsOf_lines log positive lines _ 0 (Pacer.new_keeps step)
  rw [show (Pacer.new step).start = none from rfl, rowsSince_none, ← markings.eq, (areSamples_iff all).mp reads] at given
  refine ⟨_, (isSelection_iff _).mpr rfl, given, ?_⟩
  generalize select step 0 ((rowsSinceFirst samples).map Row.elapsed) = selected
  cases samples with
  | nil => simp [rowsSinceFirst, picked]
  | cons first rest =>
    have times := pairwise_since List.mem_cons_self reads.isWhole chronological selected
    rw [rowsSinceFirst, picked_map]
    simp only [List.pairwise_map, List.head?_cons, Option.some.injEq, forall_eq']
    refine ⟨times.imp fun both => both.2, ?_, ?_⟩
    · intro ordered
      refine (times.and ordered).imp ?_
      intro a b both falls
      exact Int.not_lt.mpr both.2 (both.1.1.mpr falls)
    · intro keeps
      refine (times.and keeps).imp ?_
      intro a b both
      exact Int.not_lt.mp fun less => both.2 (both.1.1.mp less)

/-- A log that begins with the leap second at the end of a year. -/
theorem Pass.elapsed_ordered_iff_over_new_year :
    let lines := ["2016-12-31 23:59:60 height=1 v".toList, "2017-01-01 00:00:00 height=2 v".toList,
      "started".toList, "2017-01-01 23:59:60 height=3 v".toList, "2017-01-02 00:00:00 height=4 v".toList]
    let samples := (samplesOf (markings 0 lines)).1
    let step := Pacer.defaultStep
    Interval.read "10m".toList = .ok step ∧ AreMarkings lines (markings 0 lines) ∧ AreSamples (markings 0 lines) samples ∧
      (samples.Pairwise fun a b => a.time ≤ b.time) ∧
      ∃ rows : List Row, rowsOf ⟨"debug.log".toList⟩ (Pacer.new step) 0 (lines.map .ok) = rows.map .ok ∧
        rows.Pairwise fun a b => a.elapsed ≤ b.elapsed := by
  intro lines samples step
  have accepted : Interval.read "10m".toList = .ok step := rfl
  have reads : AreSamples (markings 0 lines) samples := (areSamples_iff _).mpr rfl
  have chronological : samples.Pairwise fun a b => a.time ≤ b.time := by decide +kernel
  obtain ⟨selected, selection, given, _, ordered⟩ := elapsed_ordered_iff "10m".toList step accepted
    ⟨"debug.log".toList⟩ lines _ samples (areMarkings_markings lines) reads chronological
  refine ⟨accepted, areMarkings_markings lines, reads, chronological, _, given, ordered.mpr ?_⟩
  intro first head
  have atEnd : first.time.second = 86399 := by
    cases head
    decide +kernel
  exact List.pairwise_of_forall fun a b falls => Nat.ne_of_lt falls.start_before atEnd

/-- A log that begins within a leap second and has another one at the end of a day: its rows count a second less at
midnight. -/
theorem Pass.elapsed_falls_back :
    let lines := ["2018-08-13 00:00:60 height=1 v".toList, "2018-08-13 23:59:60 height=2 v".toList,
      "2018-08-14 00:00:00 height=3 v".toList]
    let samples := (samplesOf (markings 0 lines)).1
    let step := Pacer.defaultStep
    Interval.read "10m".toList = .ok step ∧ AreMarkings lines (markings 0 lines) ∧ AreSamples (markings 0 lines) samples ∧
      (samples.Pairwise fun a b => a.time ≤ b.time) ∧
      ∃ rows : List Row, rowsOf ⟨"debug.log".toList⟩ (Pacer.new step) 0 (lines.map .ok) = rows.map .ok ∧
        rows.map (·.elapsed.wholeSeconds) = [0, 86341, 86340] ∧ ¬ rows.Pairwise fun a b => a.elapsed ≤ b.elapsed := by
  intro lines samples step
  exact ⟨rfl, areMarkings_markings lines, (areSamples_iff _).mpr rfl, by decide +kernel, rowsSinceFirst samples,
    by decide +kernel, by decide +kernel, by decide +kernel⟩

end Cadence
