import Cadence.CommandLine.Arguments
import Cadence.CommandLine.Environment
import Cadence.CommandLine.Journal
import Cadence.Conversion

/-!
The program as a whole. It first adds the nearest `.env` file, of the working directory or one above it,
to its environment. The options are those of the arguments, else those of the variable
`SYNCTIME_OPTIONS`, else none. Then the job runs, and a failure decides the exit code.
-/

namespace Cadence.CommandLine

def programName : Text := "synctime".toList

def versionText : Text := "synctime 0.1.0\n".toList

/-- What the program says of its use. -/
def helpText : Text :=
  ("Samples `height=` progress lines from a log into a CSV time series\n\n" ++
    "Usage: synctime [OPTIONS] <INPUT>\n\n" ++
    "Arguments:\n" ++
    "  <INPUT>  Log file, or a directory of log files\n\n" ++
    "Options:\n" ++
    "      --output <OUTPUT>    Output file, or directory for the generated CSV files\n" ++
    "      --options <OPTIONS>  interval=10m;elapsed=seconds|duration;suffix=.csv;extension=.log\n" ++
    "  -h, --help               Print help\n" ++
    "  -V, --version            Print version\n").toList

def optionsVariable : Text := "SYNCTIME_OPTIONS".toList

def filterVariable : Text := "RUST_LOG".toList

/-- The name of a file that adds to the environment. -/
def environmentFile : Text := ".env".toList

/-- What a run of the program shows. -/
structure Report where
  exitCode : Nat
  /-- What it writes on standard output. -/
  output : Text
  /-- The errors in its journal. -/
  errors : List Text
deriving DecidableEq

namespace Report

def success (output : Text) : Report := ⟨0, output, []⟩

/-- A run with arguments that ask for nothing. -/
def misuse : Report := ⟨2, [], []⟩

/-- A run that ends before its journal begins, since a variable cannot be set or the filter cannot be
cut. -/
def aborted : Report := ⟨101, [], []⟩

/-- A run that a failure ends, in the words of `situation`, with a journal that keeps errors or not. -/
def failed (keepsErrors : Bool) (situation : Text) (failure : Failure) : Report where
  exitCode := failure.exitCode
  output := []
  errors :=
    if keepsErrors then
      [Journal.firstLine (programName ++ ": ".toList ++ situation ++ ": ".toList ++ failure.report)]
    else []

end Report

section
variable {m : Type → Type} {Handle : Type} [Monad m] (files : FileAccess m Handle)

/-! ## The environment -/

def environmentPath (directory : Location) : Path :=
  ⟨'/' :: List.intercalate ['/'] (environmentFile :: directory).reverse⟩

/-- The content of an environment file; nothing if it cannot be read. -/
def readEnvironmentFile (path : Path) : m Bytes := do
  match ← files.openFile path with
  | .error _ => return []
  | .ok handle =>
    match ← files.read handle with
    | .error _ => return []
    | .ok content => return content

/-- The content of the nearest environment file, of a directory or one above it. -/
def nearestEnvironmentFile : Location → m Bytes
  | [] => atDirectory [] (return [])
  | name :: parent => atDirectory (name :: parent) (nearestEnvironmentFile parent)
where
  /-- The content of the file of one directory, or else what lies above. -/
  atDirectory (directory : Location) (above : m Bytes) : m Bytes := do
    match ← files.isDirectory (environmentPath directory) with
    | .ok false => readEnvironmentFile files (environmentPath directory)
    | .ok true => above
    | .error cause => if cause.kind = .notFound then above else return []

/-! ## Running -/

/-- The options that a run goes by. -/
def effectiveOptions (environment : Environment) (options : Option Text) : Text :=
  options.getD (environment.value optionsVariable)

/-- Runs the conversion that the arguments ask for. -/
def convert (keepsErrors : Bool) (input output options : Text) : m Report := do
  match Job.ofArguments programName input output options with
  | .error failure => return .failed keepsErrors "invalid options".toList failure
  | .ok job =>
    match ← runJob files job with
    | .error failure => return .failed keepsErrors ("failed to convert ".toList ++ input) failure
    | .ok _ => return .success []

/-- Does what the arguments ask for, in an environment that is complete. -/
def runIn (environment : Environment) (keepsErrors : Bool) (arguments : List Text) : m Report :=
  match Request.ofArguments arguments with
  | .version => return .success versionText
  | .help => return .success helpText
  | .misuse => return .misuse
  | .convert input output options =>
    convert files keepsErrors input (output.getD []) (effectiveOptions environment options)

/-- Runs the program. -/
def run (environment : Environment) (arguments : List Text) : m Report := do
  let content ← nearestEnvironmentFile files (← files.workingDirectory)
  match environment.loadFile content with
  | none => return .aborted
  | some loaded =>
    match Journal.letsErrorsThrough? (loaded.value? filterVariable) with
    | none => return .aborted
    | some keepsErrors => runIn files loaded keepsErrors arguments

end

end Cadence.CommandLine
