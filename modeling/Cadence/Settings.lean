import Cadence.Interval
import Cadence.Options
import Cadence.Pacer
import Cadence.Csv.Table
import Cadence.Lines

/-!
The settings of a run and the conversion that they describe: the bytes of a log become the bytes of a
table. Settings depend on the options only through the value that each option ends up with.
-/

namespace Cadence

/-- What governs a conversion. -/
structure Settings where
  /-- The cadence. -/
  step : Span
  /-- How the elapsed time is written. -/
  format : ElapsedFormat
  /-- What is put after the name of a log to name its output. -/
  suffix : Text
  /-- How the names of logs end in a directory of logs. -/
  extension : Text
deriving DecidableEq

namespace Settings

/-- The values of options that are not given. -/
def defaults : OptionName → Text
  | .interval => "10m".toList
  | .elapsed => "seconds".toList
  | .suffix => ".csv".toList
  | .extension => ".log".toList

def effective (assignment : Assignment) (name : OptionName) : Text :=
  (assignment name).getD (defaults name)

/-- The settings of given values: the interval is checked first, then the elapsed format, then the
suffix. -/
def ofAssignment (assignment : Assignment) : Except SettingsFault Settings :=
  match Interval.read (effective assignment .interval) with
  | .error fault => .error fault
  | .ok step => match ElapsedFormat.ofName (effective assignment .elapsed) with
    | .error fault => .error fault
    | .ok format =>
      if (effective assignment .suffix).isEmpty then .error .emptySuffix
      else .ok ⟨step, format, effective assignment .suffix, effective assignment .extension⟩

/-- The settings of options as they are given. -/
def ofOptions (options : Text) : Except SettingsFault Settings :=
  match Assignment.read options with
  | .error fault => .error fault
  | .ok assignment => ofAssignment assignment

/-- Converts lines that come from `log` to a table that goes to `target`. -/
def convertLines (settings : Settings) (log target : Path) (lines : List LineRead) (sink : Csv.Sink) :
    Except Failure Nat × Csv.Sink :=
  Csv.writeTable target settings.format (Pass.rowsOf log (Pacer.new settings.step) 0 lines) sink

/-- The lines of a log as they are read, or the error that reading it meets. -/
def linesRead : Except IoError Bytes → List LineRead
  | .error cause => [.error cause]
  | .ok bytes => (Lines.ofBytes bytes).map .ok

end Settings

/-- A run that is asked for: what to convert, where to and how. -/
structure Job where
  /-- The name under which the run goes. -/
  command : Text
  /-- The log, or a directory of logs. -/
  input : Path
  /-- The output, or a directory for outputs. -/
  output : Option Path
  settings : Settings
deriving DecidableEq

/-- The job of these arguments; an empty output means none. -/
def Job.ofArguments (command input output options : Text) : Except Failure Job :=
  match Settings.ofOptions options with
  | .error fault => .error (.settings fault)
  | .ok settings => .ok ⟨command, ⟨input⟩, if output.isEmpty then none else some ⟨output⟩, settings⟩

end Cadence
