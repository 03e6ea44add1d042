import Cadence.Proofs.Conversion.Meaning
import Mathlib.Data.List.Basic

/-!
Logs that grow. Bytes that are added behind whole lines leave these lines as they are, a pass over more lines goes on
from where it was, and the table is written in the order of the rows. So the table of a log is the front of the table of
any longer one, and a stamp that names no real time ends both in the same way (`Settings.conversion_extends`).
-/

namespace Cadence

/-- A pass over more lines gives the same rows first, and then goes on unless a failure has ended it. -/
theorem Pass.rowsOf_append (log : Path) (rest lines : List LineRead) : ∀ (pacer : Pacer) (behind : Nat),
    ∃ rows failure, rowsOf log pacer behind lines = Csv.rowReads rows failure ∧
      ((failure ≠ none ∧ rowsOf log pacer behind (lines ++ rest) = Csv.rowReads rows failure) ∨
        (failure = none ∧ ∃ after, rowsOf log pacer behind (lines ++ rest) =
          rows.map .ok ++ rowsOf log after (behind + lines.length) rest)) := by
  induction lines with
  | nil =>
    intro pacer behind
    exact ⟨[], none, rfl, .inr ⟨rfl, pacer, rfl⟩⟩
  | cons line others ih =>
    intro pacer behind
    have counted : behind + (line :: others).length = behind + 1 + others.length := by
      rw [List.length_cons]
      omega
    rw [counted]
    cases line with
    | error cause => exact ⟨[], some (.io log cause), rfl, .inl ⟨by simp, rfl⟩⟩
    | ok text =>
      rw [List.cons_append, rowsOf, rowsOf]
      cases Sample.ofLine (behind + 1) text with
      | error failure => exact ⟨[], some failure, rfl, .inl ⟨by simp, rfl⟩⟩
      | ok found =>
        cases found with
        | none => exact ih pacer (behind + 1)
        | some sample =>
          simp only
          cases pacer.offer sample with
          | mk verdict after =>
            cases verdict with
            | taken row =>
              obtain ⟨rows, failure, alone, longer⟩ := ih after (behind + 1)
              refine ⟨row :: rows, failure, ?_, ?_⟩
              · simp only [alone]
                cases failure <;> rfl
              · refine longer.imp ?_ ?_
                · rintro ⟨ended, same⟩
                  refine ⟨ended, ?_⟩
                  simp only [same]
                  cases failure <;> rfl
                · rintro ⟨going, later, more⟩
                  exact ⟨going, later, congrArg (.ok row :: ·) more⟩
            | held => exact ih after (behind + 1)
            | overflow => exact ⟨[], some .overflow, rfl, .inl ⟨by simp, rfl⟩⟩

theorem Pass.exists_rowReads (log : Path) (pacer : Pacer) (behind : Nat) (lines : List LineRead) :
    ∃ rows failure, rowsOf log pacer behind lines = Csv.rowReads rows failure := by
  obtain ⟨rows, failure, same, _⟩ := rowsOf_append log [] lines pacer behind
  exact ⟨rows, failure, same⟩

theorem Csv.rowReads_append (rows more : List Row) (failure : Option Failure) :
    rowReads (rows ++ more) failure = rows.map .ok ++ rowReads more failure := by
  cases failure <;> simp [rowReads]

theorem Csv.encoded_append (format : ElapsedFormat) (rows more : List Row) :
    encoded format (rows ++ more) = encoded format rows ++ (more.map (·.fields format)).flatMap record := by
  simp [encoded]

/-- Lines that are added to a log leave the table of the lines before as the front of theirs, and a failure among the
lines before as it is. -/
theorem Settings.convertLines_append (settings : Settings) (log target : Path) (lines more : List LineRead) :
    let (outcome, sink) := settings.convertLines log target lines .unlimited
    let (later, longer) := settings.convertLines log target (lines ++ more) .unlimited
    match outcome with
    | .ok _ => sink.taken <+: longer.taken
    | .error failure => later = .error failure ∧ longer.taken = sink.taken := by
  obtain ⟨rows, failure, alone, together⟩ := Pass.rowsOf_append log more lines (Pacer.new settings.step) 0
  rw [convertLines_of_rows alone]
  obtain ⟨ended, same⟩ | ⟨rfl, after, joined⟩ := together
  · obtain ⟨failure, rfl⟩ := Option.ne_none_iff_exists'.mp ended
    rw [convertLines_of_rows same]
    exact ⟨rfl, rfl⟩
  · obtain ⟨others, failure, goesOn⟩ := Pass.exists_rowReads log after (0 + lines.length) more
    rw [goesOn, ← Csv.rowReads_append] at joined
    rw [convertLines_of_rows joined]
    show Csv.encoded settings.format rows <+: Csv.encoded settings.format (rows ++ others)
    rw [Csv.encoded_append]
    exact List.prefix_append _ _

/-- The table of a log whose last line is ended is the front of the table of the log with more bytes behind it, whether
or not that succeeds. Where the log itself cannot be converted, it is a stamp in it that names no real time, and the
longer log fails at the same line with the same stamp and leaves the same bytes. -/
theorem Settings.conversion_extends (options : Text) (settings : Settings)
    (accepted : ofOptions options = .ok settings) (log target : Path) (front rest : Bytes)
    (ended : front = [] ∨ front.getLast? = some Lines.newline ∨ front.getLast? = some Lines.carriageReturn) :
    let (outcome, sink) := settings.convertLines log target (linesRead (.ok front)) .unlimited
    let (later, longer) := settings.convertLines log target (linesRead (.ok (front ++ rest))) .unlimited
    match outcome with
    | .ok _ => sink.taken <+: longer.taken
    | .error failure => (∃ line stamp, failure = .badTimestamp line stamp) ∧ later = .error failure ∧
        longer.taken = sink.taken := by
  obtain ⟨more, joined⟩ := Lines.ofBytes_prefix_append ended rest
  have lines : linesRead (.ok (front ++ rest)) = linesRead (.ok front) ++ more.map .ok := by
    rw [linesRead, linesRead, ← joined, List.map_append]
  have extended := settings.convertLines_append log target (linesRead (.ok front)) (more.map .ok)
  obtain ⟨outcome, written, converted, means⟩ :=
    means_of_step_pos (step_pos_of_ofOptions accepted) log target front
  rw [lines]
  rw [converted] at extended ⊢
  obtain ⟨count, rfl⟩ | ⟨number, stamp, rfl⟩ := means.outcome_cases
  · exact extended
  · exact ⟨⟨number, stamp, rfl⟩, extended⟩

/-- A log that ends with a `\r`, to which the `\n` that belongs to it is added first, and then a stamp that names no real
time. -/
theorem Settings.conversion_extends_within_line_end :
    let settings : Settings := ⟨Pacer.defaultStep, .seconds, ".csv".toList, ".log".toList⟩
    let front := Utf8.encode "2018-08-13 02:00:00 height=1 v\r".toList
    let rest := Utf8.encode "\n2018-08-13 25:10:00 height=2 v\n".toList
    let log : Path := ⟨"a.log".toList⟩
    let target : Path := ⟨".a.log.csv".toList⟩
    ofOptions [] = .ok settings ∧ front.getLast? = some Lines.carriageReturn ∧
      (settings.convertLines log target (linesRead (.ok (front ++ rest))) .unlimited).1 =
        .error (.badTimestamp 2 "2018-08-13 25:10:00".toList) ∧
      (settings.convertLines log target (linesRead (.ok front)) .unlimited).2.taken <+:
        (settings.convertLines log target (linesRead (.ok (front ++ rest))) .unlimited).2.taken := by
  intro settings front rest log target
  have accepted : ofOptions [] = .ok settings := rfl
  have last : front.getLast? = some Lines.carriageReturn := by decide +kernel
  have fails : (settings.convertLines log target (linesRead (.ok (front ++ rest))) .unlimited).1 =
      .error (.badTimestamp 2 "2018-08-13 25:10:00".toList) := by decide +kernel
  have ends : (settings.convertLines log target (linesRead (.ok front)) .unlimited).1 = .ok 1 := by decide +kernel
  clear_value settings front rest log target
  have extended := conversion_extends [] settings accepted log target front rest (.inr (.inr last))
  refine ⟨accepted, last, fails, ?_⟩
  generalize settings.convertLines log target (linesRead (.ok front)) .unlimited = alone at ends extended ⊢
  obtain ⟨outcome, sink⟩ := alone
  obtain rfl : outcome = .ok 1 := ends
  exact extended

end Cadence
