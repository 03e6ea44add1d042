import Cadence.FileAccess
import Cadence.Settings

/-!
Conversions of files. The logs of a run are the input itself or, where it is a directory, the files in
it whose names have the extension and no dot in front. Each log is converted by itself: the table is
written to a draft beside the output, which is given the name of the output once it is complete. When
anything fails, the draft is removed. An overflow is no failure in this sense: it ends the whole run where
it stands.

Before each log the output is compared with it, and an output that is the log itself is refused.
-/

namespace Cadence

section
variable {m : Type → Type} {Handle : Type} [Monad m] (files : FileAccess m Handle)

/-! ## The logs of a run -/

/-- There is a regular file at the path. What cannot be looked up counts as none. -/
def isFileAt (path : Path) : m Bool := do
  match ← files.isFile path with
  | .ok file => return file
  | .error _ => return false

def isDirectoryAt (path : Path) : m Bool := do
  match ← files.isDirectory path with
  | .ok directory => return directory
  | .error _ => return false

/-- A name that a log in a directory can have. -/
def hasLogName (extension name : Text) : Bool :=
  name.head? ≠ some '.' && extension.isSuffixOf name

/-- Those of the names that stand for a log in the directory. -/
def logNames (directory : Path) (extension : Text) : List Text → m (List Text)
  | [] => return []
  | name :: rest => do
    let others ← logNames directory extension rest
    if hasLogName extension name then
      if ← isFileAt files (directory.join ⟨name⟩) then return name :: others
    return others

/-- The logs that an input stands for, in the order of their names. -/
def collectLogs (input : Path) (extension : Text) : m (Except Failure (List Path)) := do
  match ← files.isDirectory input with
  | .error cause => return .error (.opening input cause)
  | .ok false => return .ok [input]
  | .ok true =>
    match ← files.list input with
    | .error cause => return .error (.opening input cause)
    | .ok names =>
      let logs ← logNames files input extension names
      return .ok ((sortBy id logs).map fun name => input.join ⟨name⟩)

/-! ## One log -/

/-- Where the table of a log goes. -/
def outputPath (job : Job) (log : Path) : m Path := do
  match job.output with
  | none => return log.extended job.settings.suffix
  | some output =>
    if ← isDirectoryAt files output then return Path.outputInside output log job.settings.suffix
    return output

/-- The two paths lead to the same file or, where one of them leads nowhere, are the same as
written. -/
def isSameFile (first second : Path) : m Bool := do
  let firstPlace ← files.canonical first
  let secondPlace ← files.canonical second
  match firstPlace, secondPlace with
  | .ok a, .ok b => return a = b
  | _, _ => return first.isSameAsWritten second

/-- The failure of a conversion whose draft takes only so many bytes. The log may fail before the draft is full. Else
the cause counts as one of the table while rows are written, and as one of the file in the last flush. -/
def Settings.failureWhenFull (settings : Settings) (log draft : Path) (lines : List LineRead) (fits : Nat)
    (cause : IoError) : Failure :=
  match (settings.convertLines log draft lines ⟨some fits, false, []⟩).1 with
  | .ok _ => .io draft cause
  | .error (.csv path _) => .csv path cause
  | .error (.io path met) => .io path (if met = Csv.Sink.full then cause else met)
  | .error failure => failure

/-- Writes the table of an open log to its draft and gives the draft the name of the output. -/
def writeOutput (settings : Settings) (log output : Path) (handle : Handle) : m (Except Failure Nat) := do
  match ← files.create output.draft with
  | .error cause => return .error (.io output.draft cause)
  | .ok draft =>
    let content ← files.read handle
    let (outcome, sink) :=
      settings.convertLines log output.draft (Settings.linesRead content) .unlimited
    match ← files.write draft sink.taken with
    | .error (fits, cause) =>
      return .error (settings.failureWhenFull log output.draft (Settings.linesRead content) fits cause)
    | .ok _ =>
      match outcome with
      | .error failure => return .error failure
      | .ok count =>
        match ← files.rename output.draft output with
        | .error cause => return .error (.io output cause)
        | .ok _ => return .ok count

/-- Converts a log and gives the number of rows. -/
def convertFile (settings : Settings) (log output : Path) : m (Except Failure Nat) := do
  match ← files.openFile log with
  | .error cause => return .error (.opening log cause)
  | .ok handle =>
    match ← writeOutput files settings log output handle with
    | .ok count => return .ok count
    | .error .overflow => return .error .overflow
    | .error failure =>
      let _ ← files.remove output.draft
      return .error failure

/-! ## Several logs -/

/-- Converts logs in order, up to the first failure, and gives the number of all rows. -/
def convertEach (job : Job) (count : Nat) : List Path → m (Except Failure Nat)
  | [] => return .ok count
  | log :: rest => do
    let output ← outputPath files job log
    if ← isSameFile files log output then
      return .error (.settings (.outputReplacesLog output))
    match ← convertFile files job.settings log output with
    | .error failure => return .error failure
    | .ok rows => convertEach job (count + rows) rest

/-- Converts logs; several of them need a directory if they have an output at all. -/
def convertAll (job : Job) (logs : List Path) : m (Except Failure Nat) := do
  match job.output with
  | none => convertEach files job 0 logs
  | some output =>
    if 1 < logs.length then
      if !(← isDirectoryAt files output) then
        return .error (.settings (.outputNotDirectory output logs.length))
    convertEach files job 0 logs

/-- Runs a job and gives the number of logs. -/
def runJob (job : Job) : m (Except Failure Nat) := do
  match ← collectLogs files job.input job.settings.extension with
  | .error failure => return .error failure
  | .ok logs =>
    match ← convertAll files job logs with
    | .error failure => return .error failure
    | .ok _ => return .ok logs.length

end

end Cadence
