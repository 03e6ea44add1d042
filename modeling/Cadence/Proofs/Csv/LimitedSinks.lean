import Cadence.Proofs.Csv.Writing

/-!
Tables on sinks that fail. A sink may take only so many bytes and may refuse to be flushed, and the rows may hold
failures. The sink is left with a front of the header and the rows before the first failure, and with all of these bytes
if they fit; the table succeeds exactly where nothing fails, and otherwise its error tells what did
(`writeTable_within_limit`).
-/

namespace Cadence.Csv

def rowsBefore (items : List RowRead) : List Row :=
  (items.takeWhile Except.isOk).filterMap Except.toOption

def firstFailure? (items : List RowRead) : Option Failure :=
  items.findSome? fun
    | .ok _ => none
    | .error failure => some failure

theorem length_rowsBefore {items : List RowRead} (noFailure : firstFailure? items = none) :
    (rowsBefore items).length = items.length := by
  induction items with
  | nil => rfl
  | cons item rest ih =>
    cases item with
    | error failure => cases noFailure
    | ok row => exact congrArg Nat.succ (ih noFailure)

/-- What stands behind the first failure does not matter. -/
theorem writeRows_rowReads (path : Path) (format : ElapsedFormat) (items : List RowRead) :
    ∀ (writer : BufferedWriter) (count : Nat), writeRows path format writer count items =
      writeRows path format writer count (rowReads (rowsBefore items) (firstFailure? items)) := by
  induction items with
  | nil => intro writer count; rfl
  | cons item rest ih =>
    intro writer count
    cases item with
    | error failure => rfl
    | ok row =>
      have unfolded : rowReads (rowsBefore (.ok row :: rest)) (firstFailure? (.ok row :: rest)) =
          .ok row :: rowReads (rowsBefore rest) (firstFailure? rest) := by
        show rowReads (row :: rowsBefore rest) (firstFailure? rest) = _
        cases firstFailure? rest <;> rfl
      rw [unfolded, writeRows, writeRows]
      split
      · rfl
      · exact ih _ _

theorem writeTable_rowReads (path : Path) (format : ElapsedFormat) (items : List RowRead) (sink : Sink) :
    writeTable path format items sink =
      writeTable path format (rowReads (rowsBefore items) (firstFailure? items)) sink := by
  unfold writeTable
  split
  · rfl
  · rw [writeRows_rowReads]

/-- A table whose rows may hold failures, on a sink that may have a limit and may refuse to be flushed. The sink is left
with a front of the header and the rows before the first failure, and with all of these bytes if they fit. The table
counts its rows exactly if none of them is a failure, the bytes fit and the sink is flushed. If the bytes fit, the first
failure among the rows ends the table; any other error is one of the sink, with the path that was given. -/
theorem writeTable_within_limit (path : Path) (format : ElapsedFormat) (items : List RowRead) (limit : Option Nat)
    (refusesFlush : Bool) :
    let whole := encoded format (rowsBefore items)
    let fits := ∀ most, limit = some most → whole.length ≤ most
    let (outcome, sink) := writeTable path format items ⟨limit, refusesFlush, []⟩
    sink.taken <+: whole ∧ (fits → sink.taken = whole) ∧
      (∀ count, outcome = .ok count ↔
        firstFailure? items = none ∧ fits ∧ refusesFlush = false ∧ count = items.length) ∧
      (∀ failure, fits → firstFailure? items = some failure → outcome = .error failure) ∧
      ∀ failure, outcome = .error failure →
        firstFailure? items = some failure ∨ ∃ cause, failure = .csv path cause ∨ failure = .io path cause := by
  have written := writeTable_cases path format (rowsBefore items) (firstFailure? items) ⟨limit, refusesFlush, []⟩
    (fun most _ => Nat.zero_le most)
  rw [writeTable_rowReads]
  generalize writeTable path format (rowReads (rowsBefore items) (firstFailure? items)) ⟨limit, refusesFlush, []⟩ =
    result at written ⊢
  obtain ⟨outcome, sink⟩ := result
  intro whole fits
  obtain ⟨admitted, written⟩ | ⟨refused, cause, taken, written, front, short⟩ := written
  · have all : fits := admitted
    obtain ⟨rfl, rfl⟩ := Prod.mk.inj written
    refine ⟨List.prefix_rfl, fun _ => rfl, ?_, ?_, ?_⟩
    · intro count
      cases failed : firstFailure? items with
      | some failure => simp [closing, ending]
      | none =>
        have counted := length_rowsBefore failed
        cases refusesFlush <;> simp [closing, ending, all, counted, eq_comm]
    · intro failure _ failed
      simp [closing, ending, failed]
    · intro failure ends
      cases failed : firstFailure? items with
      | some first =>
        simp only [closing, failed, ending, reduceCtorEq, false_and, if_false] at ends
        exact .inl (congrArg some (Except.error.inj ends))
      | none =>
        simp only [closing, failed, ending, true_and] at ends
        split at ends
        · exact .inr ⟨_, .inr (Except.error.inj ends).symm⟩
        · cases ends
  · have tooMany : ¬ fits := refused
    obtain ⟨rfl, rfl⟩ := Prod.mk.inj written
    refine ⟨front, fun all => absurd all tooMany, ?_, fun _ all => absurd all tooMany, ?_⟩
    · intro count
      simp [tooMany]
    · intro failure ends
      obtain rfl := Except.error.inj ends
      obtain first | unfilled | unwritten := short
      · exact .inl first
      · exact .inr ⟨_, .inl unfilled⟩
      · exact .inr ⟨_, .inr unwritten⟩

end Cadence.Csv
