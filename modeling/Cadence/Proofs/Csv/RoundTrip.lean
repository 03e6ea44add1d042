import Cadence.Proofs.Csv.Reading
import Cadence.Proofs.Csv.Writing

/-!
Tables are read back as they were written, whatever texts their rows hold. A table is the header and a record for each
row (`encoded`), which a reader takes apart again (`read?_encoded`); so no two tables with different records have the
same bytes (`writeTable_read_back`).
-/

namespace Cadence.Csv

theorem read?_encoded (format : ElapsedFormat) (rows : List Row) :
    read? (encoded format rows) = some (Row.header :: rows.map (·.fields format)) := by
  refine read?_flatMap_record _ ?_
  intro fields member
  rcases List.mem_cons.mp member with rfl | member
  · exact List.cons_ne_nil _ _
  · obtain ⟨row, _, rfl⟩ := List.mem_map.mp member
    exact List.cons_ne_nil _ _

theorem encoded_eq_iff {format otherFormat : ElapsedFormat} {rows others : List Row} :
    encoded otherFormat others = encoded format rows ↔
      others.map (·.fields otherFormat) = rows.map (·.fields format) := by
  constructor
  · intro same
    have read := congrArg read? same
    rw [read?_encoded, read?_encoded] at read
    exact (List.cons.inj (Option.some.inj read)).2
  · intro same
    rw [encoded, encoded, same]

theorem writeTable_rows (path : Path) (format : ElapsedFormat) (rows : List Row) :
    writeTable path format (rows.map .ok) .unlimited =
      (.ok rows.length, { Sink.unlimited with taken := encoded format rows }) :=
  writeTable_unlimited path format rows none

/-- A table on a sink that never fails counts its rows, and is read back as the names of the columns and the three
fields of each row in order; tables have the same bytes only if they have the same records. -/
theorem writeTable_read_back (path : Path) (format : ElapsedFormat) (rows : List Row) :
    let (outcome, sink) := writeTable path format (rows.map .ok) .unlimited
    outcome = .ok rows.length ∧
      read? sink.taken = some (["date".toList, "elapsed time".toList, "height".toList] ::
        rows.map fun row => [row.stamp, row.elapsed.format format, row.height]) ∧
      ∀ (otherPath : Path) (otherFormat : ElapsedFormat) (others : List Row),
        (writeTable otherPath otherFormat (others.map .ok) .unlimited).2.taken = sink.taken ↔
          others.map (·.fields otherFormat) = rows.map (·.fields format) := by
  rw [writeTable_rows]
  refine ⟨rfl, read?_encoded format rows, ?_⟩
  intro otherPath otherFormat others
  rw [writeTable_rows]
  exact encoded_eq_iff

/-- A quote, a newline, an empty field and the comma of a duration. -/
example : record ["a\"b\n".toList, "-1 day, 23:55:00".toList, []] =
    Utf8.encode "\"a\"\"b\n\",\"-1 day, 23:55:00\",\n".toList := by decide

end Cadence.Csv
