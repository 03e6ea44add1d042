import Mathlib.Data.List.Basic
import Cadence.Proofs.Pacing.Offers

/-!
The samples that a pacer takes are the best choice that the cadence admits. A choice is admitted if each sample in it
has reached as many steps as there are samples before it in the choice (`IsAdmissible`). No admitted choice has more
samples than the pacer takes, and none has its sample of any rank earlier (`Pacer.placesTaken_earliest`). The
argument counts: by any place of an admitted choice the pacer has taken at least as many samples
(`IsSelection.lt_count`).
-/

namespace Cadence

/-- A choice among elapsed times, by their places in order: the one with `k` others before it has reached `k`
steps. -/
structure IsAdmissible (step : Span) (elapsed : List Span) (places : List Nat) : Prop where
  increasing : places.Pairwise (· < ·)
  reached : ∀ k place : Nat, places[k]? = some place →
    ∃ span, elapsed[place]? = some span ∧ k * step.nanoseconds ≤ span.nanoseconds

/-- The places of the samples that are taken. -/
def Pacer.placesTaken (pacer : Pacer) (samples : List Sample) : List Nat :=
  (pacer.verdicts samples).findIdxs Verdict.isTaken

/-! ## Places of flags -/

section
variable {flags : List Bool} {k n place : Nat}

theorem count_take_succ (flags : List Bool) (place : Nat) : (flags.take (place + 1)).count true =
    (flags.take place).count true + if flags[place]? = some true then 1 else 0 := by
  rw [List.take_add_one, List.count_append]
  cases flags[place]? with
  | none => rfl
  | some flag => cases flag <;> rfl

theorem count_take_mono (flags : List Bool) {m n : Nat} (le : m ≤ n) :
    (flags.take m).count true ≤ (flags.take n).count true :=
  (List.take_sublist_take_left le).count_le true

theorem countP_id (flags : List Bool) : flags.countP id = flags.count true := by
  induction flags with
  | nil => rfl
  | cons flag rest ih => cases flag <;> simp [ih]

/-- Where more than `k` flags are set before a place, the one of rank `k` stands before it. -/
theorem exists_place_of_lt_count (more : k < (flags.take n).count true) :
    ∃ place, (flags.findIdxs id)[k]? = some place ∧ place < n := by
  have front : (flags.take n).findIdxs id = (flags.findIdxs id).take ((flags.take n).count true) := by
    rw [List.findIdxs_take, countP_id]
  have long : k < ((flags.take n).findIdxs id).length := by
    rw [List.length_findIdxs, countP_id]
    exact more
  refine ⟨((flags.take n).findIdxs id)[k], ?_, ?_⟩
  · rw [← List.getElem?_eq_getElem long, front, List.getElem?_take_of_lt more]
  · have inside := List.getElem_findIdxs_lt long
    rw [Nat.add_zero, List.length_take] at inside
    omega

/-- A flag that is set has the rank that the flags before it give it. -/
theorem getElem?_findIdxs_count (set : flags[place]? = some true) :
    (flags.findIdxs id)[(flags.take place).count true]? = some place := by
  obtain ⟨inside, flag⟩ := List.getElem?_eq_some_iff.mp set
  have behind : (flags.take place).length = place := List.length_take_of_le (Nat.le_of_lt inside)
  have cut : flags.findIdxs id =
      (flags.take place).findIdxs id ++ place :: (flags.drop (place + 1)).findIdxs id (place + 1) := by
    conv => lhs; rw [← List.take_append_drop place flags, List.findIdxs_append, List.drop_eq_getElem_cons inside, flag,
      List.findIdxs_cons, behind, Nat.zero_add]
    rfl
  have rank : ((flags.take place).findIdxs id).length = (flags.take place).count true := by
    rw [List.length_findIdxs, countP_id]
  rw [cut, ← rank, List.getElem?_append_right (Nat.le_refl _), Nat.sub_self]
  rfl

theorem count_take_of_getElem? (found : (flags.findIdxs id)[k]? = some place) :
    flags[place]? = some true ∧ (flags.take place).count true = k := by
  obtain ⟨long, same⟩ := List.getElem?_eq_some_iff.mp found
  obtain ⟨inside, flag⟩ := List.mem_findIdxs_iff_exists_getElem_pos.mp (same ▸ List.getElem_mem long)
  have set : flags[place]? = some true := List.getElem?_eq_some_iff.mpr ⟨inside, flag⟩
  exact ⟨set, ((List.getElem?_inj long List.nodup_findIdxs).mp (found.trans (getElem?_findIdxs_count set).symm)).symm⟩

end

/-! ## Admitted choices -/

section
variable {step : Span} {elapsed : List Span} {selected : List Bool}

theorem IsSelection.isAdmissible (selection : IsSelection step 0 elapsed selected) :
    IsAdmissible step elapsed (selected.findIdxs id) := by
  refine ⟨List.pairwise_findIdxs, ?_⟩
  intro k place found
  obtain ⟨set, before⟩ := count_take_of_getElem? found
  obtain ⟨inside, _⟩ := List.getElem?_eq_some_iff.mp set
  have within : place < elapsed.length := selection.1 ▸ inside
  have reached := (selection.2 place elapsed[place] (List.getElem?_eq_getElem within)).mp set
  rw [before, Nat.zero_add] at reached
  exact ⟨elapsed[place], List.getElem?_eq_getElem within, reached⟩

/-- A place that has reached `k` steps, when at least `k` were selected before it, is selected unless there were more. -/
theorem IsSelection.lt_count_of_reached (selection : IsSelection step 0 elapsed selected) {k place : Nat} {span : Span}
    (before : k ≤ (selected.take place).count true) (inside : elapsed[place]? = some span)
    (reached : k * step.nanoseconds ≤ span.nanoseconds) : k < (selected.take (place + 1)).count true := by
  rw [count_take_succ]
  rcases Nat.lt_or_eq_of_le before with more | same
  · exact Nat.lt_add_right _ more
  · have set : selected[place]? = some true := by
      rw [selection.2 place span inside, ← same, Nat.zero_add]
      exact reached
    rw [if_pos set, ← same]
    exact Nat.lt_succ_self k

/-- At the place of rank `k` in an admitted choice the schedule has selected more than `k`. -/
theorem IsSelection.lt_count (selection : IsSelection step 0 elapsed selected) {places : List Nat}
    (admissible : IsAdmissible step elapsed places) (k : Nat) : ∀ {place : Nat}, places[k]? = some place →
      k < (selected.take (place + 1)).count true := by
  -- the place of the rank before stands earlier, and by then the schedule is no more behind than here
  induction k with
  | zero =>
    intro place found
    obtain ⟨span, inside, reached⟩ := admissible.reached 0 place found
    exact selection.lt_count_of_reached (Nat.zero_le _) inside reached
  | succ k ih =>
    intro place found
    obtain ⟨span, inside, reached⟩ := admissible.reached (k + 1) place found
    obtain ⟨long, rfl⟩ := List.getElem?_eq_some_iff.mp found
    have previous := ih (List.getElem?_eq_getElem (Nat.lt_of_succ_lt long))
    have earlier : places[k] < places[k + 1] :=
      List.pairwise_iff_getElem.mp admissible.increasing k (k + 1) _ long (Nat.lt_succ_self k)
    exact selection.lt_count_of_reached (Nat.le_trans previous (count_take_mono selected earlier)) inside reached

theorem IsSelection.exists_earlier (selection : IsSelection step 0 elapsed selected) {places : List Nat}
    (admissible : IsAdmissible step elapsed places) {k place : Nat} (found : places[k]? = some place) :
    ∃ earlier, (selected.findIdxs id)[k]? = some earlier ∧ earlier ≤ place := by
  obtain ⟨earlier, ranked, before⟩ := exists_place_of_lt_count (selection.lt_count admissible k found)
  exact ⟨earlier, ranked, Nat.le_of_lt_succ before⟩

theorem IsSelection.length_le (selection : IsSelection step 0 elapsed selected) {places : List Nat}
    (admissible : IsAdmissible step elapsed places) : places.length ≤ (selected.findIdxs id).length := by
  refine Nat.le_of_not_lt fun longer => ?_
  obtain ⟨_, ranked, _⟩ := selection.exists_earlier admissible (List.getElem?_eq_getElem longer)
  rw [List.getElem?_eq_none (Nat.le_refl _)] at ranked
  contradiction

theorem IsAdmissible.of_longer {longer : Span} {places : List Nat} (admissible : IsAdmissible longer elapsed places)
    (shorter : step ≤ longer) : IsAdmissible step elapsed places := by
  refine ⟨admissible.increasing, ?_⟩
  intro k place found
  obtain ⟨span, inside, reached⟩ := admissible.reached k place found
  have fewer : (k : Int) * step.nanoseconds ≤ k * longer.nanoseconds :=
    Int.mul_le_mul_of_nonneg_left shorter (Int.natCast_nonneg k)
  exact ⟨span, inside, Int.le_trans fewer reached⟩

end

/-! ## The pacer -/

theorem Pacer.placesTaken_eq (pacer : Pacer) (samples : List Sample) :
    pacer.placesTaken samples = ((pacer.verdicts samples).map Verdict.isTaken).findIdxs id := by
  rw [placesTaken, List.findIdxs_map]
  rfl

/-- The samples that are taken are an admitted choice, than which no admitted choice is longer or has its sample of any
rank earlier; and of two steps the longer one never takes more of the same samples. -/
theorem Pacer.placesTaken_earliest (text : Text) (step : Span) (accepted : Interval.read text = .ok step)
    (samples : List Sample) :
    let elapsed := (rowsSinceFirst samples).map Row.elapsed
    let taken := (new step).placesTaken samples
    IsAdmissible step elapsed taken ∧
      (∀ places, IsAdmissible step elapsed places → places.length ≤ taken.length ∧
        ∀ (k place : Nat), places[k]? = some place → ∃ earlier, taken[k]? = some earlier ∧ earlier ≤ place) ∧
      ∀ longerText longer, Interval.read longerText = .ok longer → step ≤ longer →
        ((new longer).placesTaken samples).length ≤ taken.length := by
  intro elapsed taken
  have selection := isTaken_new (Interval.nanoseconds_pos_of_read accepted) samples
  have same : taken = _ := placesTaken_eq (new step) samples
  rw [same]
  refine ⟨selection.isAdmissible, ?_, ?_⟩
  · intro places admissible
    exact ⟨selection.length_le admissible, fun k place found => selection.exists_earlier admissible found⟩
  · intro longerText longer acceptedLonger shorter
    have longerSelection := isTaken_new (Interval.nanoseconds_pos_of_read acceptedLonger) samples
    rw [placesTaken_eq]
    exact selection.length_le (longerSelection.isAdmissible.of_longer shorter)

/-- Samples after a gap of 35 minutes, one of them out of order: four are taken, and no choice that the cadence admits
has more. -/
theorem Pacer.placesTaken_earliest_after_gap :
    let step := defaultStep
    let lines := ["2018-08-13 02:00:00 height=1 v".toList, "2018-08-13 02:35:00 height=2 v".toList,
      "2018-08-13 01:00:00 height=3 v".toList, "2018-08-13 02:36:00 height=4 v".toList,
      "2018-08-13 02:37:00 height=5 v".toList, "2018-08-13 02:38:00 height=6 v".toList]
    let samples := (samplesOf (markings 0 lines)).1
    Interval.read "10m".toList = .ok step ∧ (new step).placesTaken samples = [0, 1, 3, 4] ∧
      ∀ places, IsAdmissible step ((rowsSinceFirst samples).map Row.elapsed) places → places.length ≤ 4 := by
  intro step lines samples
  have accepted : Interval.read "10m".toList = .ok step := rfl
  have taken : (new step).placesTaken samples = [0, 1, 3, 4] := by decide +kernel
  refine ⟨accepted, taken, ?_⟩
  intro places admissible
  have bound := ((placesTaken_earliest "10m".toList step accepted samples).2.1 places admissible).1
  rw [taken] at bound
  exact bound

end Cadence
