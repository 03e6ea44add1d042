import Cadence.Csv.Sink
import Cadence.Pass

/-!
The table of a conversion: the header and a record for each row, up to the first failure among the
rows. An error of the sink while records are written is one of the table, an error of the last flush
one of the file.
-/

namespace Cadence.Csv

/-- Writes the rows that are left and flushes; `count` rows have been written. -/
def writeRows (path : Path) (format : ElapsedFormat) (writer : BufferedWriter) (count : Nat) :
    List RowRead → Except Failure Nat × BufferedWriter
  | [] => match writer.flush with
    | (some cause, after) => (.error (.io path cause), after)
    | (none, after) => (.ok count, after)
  | .error failure :: _ => (.error failure, writer)
  | .ok row :: rest => match writer.putAll (recordAtoms (row.fields format)) with
    | (some cause, after) => (.error (.csv path cause), after)
    | (none, after) => writeRows path format after (count + 1) rest

/-- Writes a table and gives the number of its rows, or the failure, with the sink at the end. -/
def writeTable (path : Path) (format : ElapsedFormat) (rows : List RowRead) (sink : Sink) :
    Except Failure Nat × Sink :=
  match (BufferedWriter.new sink).putAll (recordAtoms Row.header) with
  | (some cause, after) => (.error (.csv path cause), after.close)
  | (none, after) =>
    let outcome := writeRows path format after 0 rows
    (outcome.1, outcome.2.close)

end Cadence.Csv
