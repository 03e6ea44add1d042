import Cadence.Proofs.Pacing.AnyStep
import Cadence.Proofs.Pacing.Results

/-!
Lines that give no row do not matter. A line that carries no sample, or one that is held, leaves the pacer as it is
(`Pass.line_cases`), so a pass over fewer lines gives the same rows as long as the lines that gave them are there
(`Pass.results_of_fewer_lines`).
-/

namespace Cadence

namespace Pass

/-- A pass that is asked again and again gives a row at the line of this number. -/
inductive GivesAt : Pass → Nat → Prop
  | now {pass after : Pass} {row : Row} : pass.next = (some (.ok row), after) → GivesAt pass after.behind
  | later {pass after : Pass} {row : Row} {number : Nat} : pass.next = (some (.ok row), after) →
      GivesAt after number → GivesAt pass number

theorem givesAt_iff {pass : Pass} {number : Nat} : pass.GivesAt number ↔
    ∃ row after, pass.next = (some (.ok row), after) ∧ (number = after.behind ∨ after.GivesAt number) := by
  constructor
  · intro gives
    cases gives with
    | now next => exact ⟨_, _, next, .inl rfl⟩
    | later next gives => exact ⟨_, _, next, .inr gives⟩
  · rintro ⟨row, after, next, rfl | gives⟩
    · exact .now next
    · exact .later next gives

theorem givesAt_congr {first second : Pass} (same : first.next = second.next) (number : Nat) :
    first.GivesAt number ↔ second.GivesAt number := by
  rw [givesAt_iff, givesAt_iff, same]

theorem givesAt_of_row {pass after : Pass} {row : Row} (gives : pass.next = (some (.ok row), after)) (number : Nat) :
    pass.GivesAt number ↔ number = after.behind ∨ after.GivesAt number := by
  rw [givesAt_iff]
  constructor
  · rintro ⟨_, next, is, there⟩
    cases gives.symm.trans is
    exact there
  · intro there
    exact ⟨row, after, gives, there⟩

theorem not_givesAt_of_failure {pass after : Pass} {failure : Failure}
    (fails : pass.next = (some (.error failure), after)) (number : Nat) : ¬ pass.GivesAt number := by
  rw [givesAt_iff]
  rintro ⟨_, _, is, _⟩
  cases fails.symm.trans is

section
variable {step : Span} {pacer : Pacer} {start : Option Timestamp} {count : Nat}

/-- All that a line can come to: it is passed over and leaves no trace, it gives a row, or a failure ends the pass. -/
theorem line_cases (log : Path) (reaches : pacer.Reaches step start count) (line : Text) :
    (∀ behind rest,
      next ⟨pacer, log, .ok line :: rest, behind, false⟩ = next ⟨pacer, log, rest, behind + 1, false⟩ ∧
      rowsOf log pacer behind (.ok line :: rest) = rowsOf log pacer (behind + 1) rest) ∨
    (∃ row after first more, Pacer.Reaches after step first more ∧ ∀ behind rest,
      next ⟨pacer, log, .ok line :: rest, behind, false⟩ = (some (.ok row), ⟨after, log, rest, behind + 1, false⟩) ∧
      rowsOf log pacer behind (.ok line :: rest) = .ok row :: rowsOf log after (behind + 1) rest) ∨
    ∀ behind rest, ∃ failure after,
      next ⟨pacer, log, .ok line :: rest, behind, false⟩ = (some (.error failure), after) ∧
      rowsOf log pacer behind (.ok line :: rest) = [.error failure] := by
  have goes : ∀ behind rest, next ⟨pacer, log, .ok line :: rest, behind, false⟩ =
      advance log pacer behind (.ok line :: rest) := fun _ _ => rfl
  simp only [goes, advance, rowsOf, Sample.ofLine]
  cases Marked.ofLine? line with
  | none => exact .inl fun behind rest => ⟨rfl, rfl⟩
  | some marked =>
    simp only
    cases Timestamp.ofStamp? marked.stamp with
    | none => exact .inr (.inr fun behind rest => ⟨_, _, rfl, rfl⟩)
    | some time =>
      simp only
      obtain ⟨_, held, _⟩ | ⟨_, _, after, taken, moved⟩ | ⟨_, _, overflows, _⟩ :=
        reaches.offer_cases ⟨marked.stamp, time, marked.height⟩
      · rw [held]
        exact .inl fun behind rest => ⟨rfl, rfl⟩
      · rw [taken]
        exact .inr (.inl ⟨_, after, _, _, moved, fun behind rest => ⟨rfl, rfl⟩⟩)
      · rw [overflows]
        exact .inr (.inr fun behind rest => ⟨_, _, rfl, rfl⟩)

end

theorem not_givesAt_of_no_lines {pacer : Pacer} {log : Path} {behind : Nat} (number : Nat) :
    ¬ GivesAt ⟨pacer, log, [], behind, false⟩ number := by
  have atEnd : next ⟨pacer, log, [], behind, false⟩ = (none, ⟨pacer, log, [], behind, true⟩) := rfl
  rw [givesAt_iff]
  rintro ⟨_, _, is, _⟩
  cases atEnd.symm.trans is

theorem behind_lt_of_givesAt (log : Path) {step : Span} (lines : List Text) :
    ∀ {pacer : Pacer} {start : Option Timestamp} {count behind number : Nat}, pacer.Reaches step start count →
      GivesAt ⟨pacer, log, lines.map .ok, behind, false⟩ number → behind < number := by
  induction lines with
  | nil =>
    intro pacer start count behind number reaches given
    exact absurd given (not_givesAt_of_no_lines number)
  | cons line rest ih =>
    intro pacer start count behind number reaches given
    rw [List.map_cons] at given
    obtain passes | ⟨row, after, first, more, moved, gives⟩ | fails := line_cases log reaches line
    · have later := ih reaches ((givesAt_congr (passes _ _).1 number).mp given)
      omega
    · rcases (givesAt_of_row (gives _ _).1 number).mp given with rfl | given
      · exact Nat.lt_succ_self behind
      · have later := ih moved given
        omega
    · obtain ⟨failure, after, ends, _⟩ := fails behind (rest.map .ok)
      exact absurd given (not_givesAt_of_failure ends number)

/-- The lines at which rows are given, one by one. -/
theorem exists_givers (log : Path) {step : Span} (lines : List Text) :
    ∀ {pacer : Pacer} {start : Option Timestamp} {count : Nat} (behind : Nat), pacer.Reaches step start count →
      ∃ givers : List Bool, ∀ i, givers[i]? = some true ↔
        GivesAt ⟨pacer, log, lines.map .ok, behind, false⟩ (behind + i + 1) := by
  induction lines with
  | nil =>
    intro pacer start count behind reaches
    exact ⟨[], fun i => by simp [not_givesAt_of_no_lines]⟩
  | cons line rest ih =>
    intro pacer start count behind reaches
    have shift : ∀ i, behind + (i + 1) + 1 = behind + 1 + i + 1 := by omega
    obtain passes | ⟨row, after, first, more, moved, gives⟩ | fails := line_cases log reaches line
    · obtain ⟨givers, all⟩ := ih (behind + 1) reaches
      refine ⟨false :: givers, ?_⟩
      intro i
      rw [List.map_cons, givesAt_congr (passes _ _).1]
      cases i with
      | zero => simpa using fun given => Nat.lt_irrefl _ (behind_lt_of_givesAt log rest reaches given)
      | succ i => rw [List.getElem?_cons_succ, shift, all]
    · obtain ⟨givers, all⟩ := ih (behind + 1) moved
      refine ⟨true :: givers, ?_⟩
      intro i
      rw [List.map_cons, givesAt_of_row (gives _ _).1]
      cases i with
      | zero => simp
      | succ i =>
        rw [List.getElem?_cons_succ, shift, all]
        exact ⟨.inr, fun given => given.resolve_left (by show ¬ behind + 1 + i + 1 = behind + 1; omega)⟩
    · refine ⟨[], ?_⟩
      intro i
      obtain ⟨failure, after, ends, _⟩ := fails behind (rest.map .ok)
      simpa using not_givesAt_of_failure ends _

/-- A pass over lines among which all that gave rows are left gives the same rows. -/
theorem rowsOf_picked (log : Path) {step : Span} (lines : List Text) :
    ∀ {pacer : Pacer} {start : Option Timestamp} {count : Nat} (behind numbered : Nat) {kept : List Bool},
      pacer.Reaches step start count → (∀ failure, .error failure ∉ rowsOf log pacer behind (lines.map .ok)) →
      (∀ i, GivesAt ⟨pacer, log, lines.map .ok, behind, false⟩ (behind + i + 1) → kept[i]? = some true) →
      rowsOf log pacer numbered ((picked lines kept).map .ok) = rowsOf log pacer behind (lines.map .ok) := by
  induction lines with
  | nil =>
    intro pacer start count behind numbered kept reaches noFailure keeps
    rfl
  | cons line rest ih =>
    intro pacer start count behind numbered kept reaches noFailure keeps
    rw [picked_cons, List.map_append]
    rw [List.map_cons] at noFailure keeps ⊢
    obtain passes | ⟨row, after, first, more, moved, gives⟩ | fails := line_cases log reaches line
    · obtain ⟨same, rows⟩ := passes behind (rest.map .ok)
      rw [rows] at noFailure ⊢
      have others : ∀ numbered, rowsOf log pacer numbered ((picked rest kept.tail).map .ok) =
          rowsOf log pacer (behind + 1) (rest.map .ok) := by
        intro numbered
        refine ih (behind + 1) numbered reaches noFailure ?_
        intro i given
        rw [List.getElem?_tail]
        refine keeps (i + 1) ((givesAt_congr same _).mpr ?_)
        rwa [show behind + (i + 1) + 1 = behind + 1 + i + 1 by omega]
      by_cases stays : kept[0]? = some true
      · rw [if_pos stays, List.map_singleton, List.singleton_append, (passes numbered _).2]
        exact others _
      · rw [if_neg stays]
        exact others _
    · obtain ⟨taken, rows⟩ := gives behind (rest.map .ok)
      rw [rows] at noFailure ⊢
      have stays : kept[0]? = some true := keeps 0 ((givesAt_of_row taken _).mpr (.inl rfl))
      rw [if_pos stays, List.map_singleton, List.singleton_append, (gives numbered _).2]
      refine congrArg _ (ih (behind + 1) _ moved ?_ ?_)
      · intro failure member
        exact noFailure failure (List.mem_cons_of_mem _ member)
      · intro i given
        rw [List.getElem?_tail]
        refine keeps (i + 1) ((givesAt_of_row taken _).mpr (.inr ?_))
        rwa [show behind + (i + 1) + 1 = behind + 1 + i + 1 by omega]
    · obtain ⟨failure, after, _, rows⟩ := fails behind (rest.map .ok)
      exact absurd (by rw [rows]; exact List.mem_cons_self) (noFailure failure)

/-- Where a pass over lines meets no failure, a pass over some of them gives the same results as long as all lines that
gave rows are among them, in particular if these are all that is left. -/
theorem results_of_fewer_lines (step : Span) (log : Path) (lines : List Text)
    (noFailure : ∀ asked failure, (new (Pacer.new step) log (lines.map .ok)).result asked ≠ some (.error failure)) :
    let whole := new (Pacer.new step) log (lines.map .ok)
    let fewer := fun kept => new (Pacer.new step) log ((picked lines kept).map .ok)
    (∀ kept : List Bool, (∀ i, whole.GivesAt (i + 1) → kept[i]? = some true) →
      ∀ asked, (fewer kept).result asked = whole.result asked) ∧
    ∃ givers : List Bool, (∀ i, givers[i]? = some true ↔ whole.GivesAt (i + 1)) ∧
      ∀ asked, (fewer givers).result asked = whole.result asked := by
  intro whole fewer
  have reaches := Pacer.new_reaches step
  have results : ∀ items asked, (new (Pacer.new step) log items).result asked =
      (rowsOf log (Pacer.new step) 0 items)[asked]? :=
    fun items asked => result_eq log items (Pacer.new step) 0 asked
  have unfailing : ∀ failure, .error failure ∉ rowsOf log (Pacer.new step) 0 (lines.map .ok) := by
    intro failure member
    obtain ⟨asked, found⟩ := List.mem_iff_getElem?.mp member
    exact noFailure asked failure ((results _ asked).trans found)
  have same : ∀ kept : List Bool, (∀ i, whole.GivesAt (i + 1) → kept[i]? = some true) →
      ∀ asked, (fewer kept).result asked = whole.result asked := by
    intro kept keeps asked
    have rows := rowsOf_picked log lines 0 0 reaches unfailing fun i given =>
      keeps i (by rwa [Nat.zero_add] at given)
    rw [results, results, rows]
  obtain ⟨givers, all⟩ := exists_givers log lines 0 reaches
  simp only [Nat.zero_add] at all
  exact ⟨same, givers, all, same givers fun i => (all i).mpr⟩

/-- A line that is taken, one without a sample, one that is held, one that is out of order and one that is taken
again. -/
theorem results_of_fewer_lines_of_five_lines :
    let step := Pacer.defaultStep
    let log : Path := ⟨"debug.log".toList⟩
    let lines : List Text := ["2018-08-13 02:00:00 height=1 v".toList, "starting".toList,
      "2018-08-13 02:05:00 height=2 v".toList, "2018-08-13 01:00:00 height=3 v".toList,
      "2018-08-13 02:10:00 height=4 v".toList]
    let whole := new (Pacer.new step) log (lines.map .ok)
    let fewer := fun kept => new (Pacer.new step) log ((picked lines kept).map .ok)
    (∀ asked failure, whole.result asked ≠ some (.error failure)) ∧
      (∀ kept : List Bool, (∀ i, whole.GivesAt (i + 1) → kept[i]? = some true) →
        ∀ asked, (fewer kept).result asked = whole.result asked) ∧
      ∃ givers : List Bool, (∀ i, givers[i]? = some true ↔ whole.GivesAt (i + 1)) ∧
        ∀ asked, (fewer givers).result asked = whole.result asked := by
  intro step log lines whole fewer
  have rows : (rowsOf log (Pacer.new step) 0 (lines.map .ok)).all Except.toBool = true := by decide +kernel
  have noFailure : ∀ asked failure, whole.result asked ≠ some (.error failure) := by
    intro asked failure fails
    have member := List.mem_of_getElem? ((result_eq log _ (Pacer.new step) 0 asked).symm.trans fails)
    cases List.all_eq_true.mp rows _ member
  clear rows
  clear_value step log lines
  exact ⟨noFailure, results_of_fewer_lines step log lines noFailure⟩

end Pass

end Cadence
