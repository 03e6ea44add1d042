import Cadence.Proofs.Conversion.Meaning

/-!
Samples that are offered to one pacer, one after the other: what becomes of each of them (`Pacer.verdicts`) and the
pacer that is left (`Pacer.after`). With a positive step the pacer keeps its schedule whatever is offered
(`Pacer.Keeps.after`), so that no sum leaves the range of spans and the verdicts are those of the schedule
(`Pacer.verdicts_eq`).
-/

namespace Cadence

def Verdict.isTaken : Verdict → Bool
  | .taken _ => true
  | .held => false
  | .overflow => false

/-- What becomes of a sample with this row, where nothing leaves the range. -/
def Verdict.ofDue (row : Row) (due : Bool) : Verdict :=
  if due then .taken row else .held

namespace Pacer

/-- What becomes of samples that are offered one after the other. -/
def verdicts (pacer : Pacer) : List Sample → List Verdict
  | [] => []
  | sample :: rest => (pacer.offer sample).1 :: (pacer.offer sample).2.verdicts rest

/-- The pacer after samples have been offered to it one after the other. -/
def after (pacer : Pacer) : List Sample → Pacer
  | [] => pacer
  | sample :: rest => (pacer.offer sample).2.after rest

section
variable {step : Span} {pacer : Pacer} {count : Nat}

/-- All that an offer can come to while the schedule is kept: the sample is due and taken, and one more sample has been
taken then; or it is not due and held, and only the clock may have been started. -/
theorem Keeps.offer_cases (keeps : pacer.Keeps step count) (positive : 0 < step.nanoseconds) (sample : Sample) :
    (count * step.nanoseconds ≤ (sample.time.since (pacer.start.getD sample.time)).nanoseconds ∧
      ∃ after, pacer.offer sample = (.taken (Row.ofSample (pacer.start.getD sample.time) sample), after) ∧
        after.start = some (pacer.start.getD sample.time) ∧ after.Keeps step (count + 1)) ∨
    (¬ count * step.nanoseconds ≤ (sample.time.since (pacer.start.getD sample.time)).nanoseconds ∧
      ∃ after, pacer.offer sample = (.held, after) ∧ after.start = some (pacer.start.getD sample.time) ∧
        after.Keeps step count) := by
  by_cases due : count * step.nanoseconds ≤ (sample.time.since (pacer.start.getD sample.time)).nanoseconds
  · exact .inl ⟨due, offer_of_due sample keeps positive rfl due⟩
  · exact .inr ⟨due, _, offer_of_early sample keeps rfl due, rfl, keeps⟩

/-- The verdicts on samples are those of the schedule on their rows. -/
theorem verdicts_eq (positive : 0 < step.nanoseconds) (samples : List Sample) : ∀ {pacer : Pacer} {count : Nat},
    pacer.Keeps step count → pacer.verdicts samples = List.zipWith Verdict.ofDue (rowsSince pacer.start samples)
      (select step count ((rowsSince pacer.start samples).map Row.elapsed)) := by
  induction samples with
  | nil => intro pacer count keeps; rfl
  | cons sample rest ih =>
    intro pacer count keeps
    rw [verdicts, rowsSince, List.map_cons, select]
    obtain ⟨due, after, taken, started, keepsAfter⟩ | ⟨early, after, held, started, keepsAfter⟩ :=
      keeps.offer_cases positive sample
    · rw [taken, if_pos (by exact due), List.zipWith_cons_cons, ih keepsAfter, started]
      rfl
    · rw [held, if_neg (by exact early), List.zipWith_cons_cons, ih keepsAfter, started]
      rfl

/-- The schedule is kept, with as many samples taken as there are verdicts that say so. -/
theorem Keeps.after (positive : 0 < step.nanoseconds) (samples : List Sample) : ∀ {pacer : Pacer} {count : Nat},
    pacer.Keeps step count →
      (pacer.after samples).Keeps step (count + (pacer.verdicts samples).countP Verdict.isTaken) := by
  induction samples with
  | nil => intro pacer count keeps; exact keeps
  | cons sample rest ih =>
    intro pacer count keeps
    rw [verdicts, Pacer.after, List.countP_cons]
    obtain ⟨_, after, taken, _, keepsAfter⟩ | ⟨_, after, held, _, keepsAfter⟩ := keeps.offer_cases positive sample
    · rw [taken, if_pos (by rfl), Nat.add_comm _ 1, ← Nat.add_assoc]
      exact ih keepsAfter
    · rw [held, if_neg (by simp [Verdict.isTaken]), Nat.add_zero]
      exact ih keepsAfter

end

theorem map_isTaken_zipWith (rows : List Row) : ∀ {selected : List Bool}, selected.length = rows.length →
    (List.zipWith Verdict.ofDue rows selected).map Verdict.isTaken = selected := by
  induction rows with
  | nil =>
    intro selected same
    rw [List.length_eq_zero_iff.mp same]
    rfl
  | cons row rest ih =>
    intro selected same
    obtain ⟨flag, flags, rfl⟩ := List.exists_cons_of_length_eq_add_one same
    rw [List.zipWith_cons_cons, List.map_cons, ih (by simpa using same)]
    cases flag <;> rfl

/-- A new pacer with a positive step takes what the schedule selects. -/
theorem isTaken_new {step : Span} (positive : 0 < step.nanoseconds) (samples : List Sample) :
    IsSelection step 0 ((rowsSinceFirst samples).map Row.elapsed)
      (((new step).verdicts samples).map Verdict.isTaken) := by
  have selection := (isSelection_iff ((rowsSinceFirst samples).map Row.elapsed)).mpr (Eq.refl (select step 0 _))
  rw [verdicts_eq positive samples (new_keeps step), show (new step).start = none from rfl, rowsSince_none,
    map_isTaken_zipWith _ (by rw [selection.1, List.length_map])]
  exact selection

end Pacer

end Cadence
