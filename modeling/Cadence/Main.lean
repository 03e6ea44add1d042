import Cadence.CommandLine.Program

/-!
The program on real files. Each operation is the one of the system, and its error is known by its
number.
-/

namespace Cadence.RealFiles

/-- The number that the system has for an error, where it has one. It may come negated. -/
def number? : IO.Error → Option Nat
  | .noFileOrDirectory _ code _ => some code.toNat
  | .permissionDenied _ code _ => some code.toNat
  | .alreadyExists _ code _ => some code.toNat
  | .invalidArgument _ code _ => some code.toNat
  | .inappropriateType _ code _ => some code.toNat
  | .noSuchThing _ code _ => some code.toNat
  | .resourceExhausted _ code _ => some code.toNat
  | .otherError code _ => some code.toNat
  | .resourceBusy code _ => some code.toNat
  | .hardwareFault code _ => some code.toNat
  | .unsatisfiedConstraints code _ => some code.toNat
  | .illegalOperation code _ => some code.toNat
  | _ => none

/-- The error that has a number, without regard to its sign in 32 bits. -/
def withNumber? (number : Nat) : Option IoError :=
  match if number < 0x80000000 then number else 0x100000000 - number with
  | 1 => some (.numbered .permissionDenied "Operation not permitted" 1)
  | 2 => some FileFault.notFound.error
  | 5 => some (.numbered .other "Input/output error" 5)
  | 13 => some (.numbered .permissionDenied "Permission denied" 13)
  | 16 => some FileFault.busy.error
  | 18 => some (.numbered .other "Invalid cross-device link" 18)
  | 20 => some FileFault.notADirectory.error
  | 21 => some FileFault.isADirectory.error
  | 28 => some (.numbered .other "No space left on device" 28)
  | 30 => some (.numbered .other "Read-only file system" 30)
  | 36 => some FileFault.nameTooLong.error
  | 40 => some FileFault.tooManyLinks.error
  | _ => none

/-- An error of the system, in the system's own words if its number is not known. -/
def ioError (error : IO.Error) : IoError :=
  ((number? error).bind withNumber?).getD ⟨.other, (toString error).toList⟩

/-- An operation with its error as a value. -/
def attempt {α : Type} (operation : IO α) : IO (Except IoError α) := do
  match ← operation.toBaseIO with
  | .ok value => return .ok value
  | .error error => return .error (ioError error)

/-- A path as the system takes it. -/
def native (path : Path) :=
  (IO.FS.DirEntry.mk (String.ofList path.text) "").root

/-- The names of an absolute path, innermost first. -/
def location (path : String) : Location :=
  ((pieces '/' path.toList).filter (· ≠ [])).reverse

def blockBytes : Nat := 4096

/-- Writes block after block. A refusal comes with the number of bytes in the blocks before. -/
def writeBlocks (handle : IO.FS.Handle) (content : ByteArray) : IO (Except (Nat × IoError) PUnit) := do
  for block in [0 : content.size / blockBytes + 1] do
    let start := block * blockBytes
    let written ← attempt do
      handle.write (content.extract start (start + blockBytes))
      handle.flush
    match written with
    | .error cause => return .error (start, cause)
    | .ok _ => pure ()
  return .ok ⟨⟩

/-- The operations on real files. -/
def access : FileAccess IO IO.FS.Handle where
  isDirectory path := attempt do return (← (native path).metadata).type == .dir
  isFile path := attempt do return (← (native path).metadata).type == .file
  list path := attempt do
    return (← (native path).readDir).toList.map fun entry => entry.fileName.toList
  canonical path := attempt do return location (← IO.FS.realPath (native path)).toString
  openFile path := attempt (IO.FS.Handle.mk (native path) .read)
  read handle := attempt do return (← handle.readBinToEnd).toList
  create path := attempt (IO.FS.Handle.mk (native path) .write)
  write handle content := writeBlocks handle ⟨content.toArray⟩
  rename source target := attempt (IO.FS.rename (native source) (native target))
  remove path := attempt (IO.FS.removeFile (native path))
  workingDirectory := do return location (← IO.currentDir).toString

/-- The variables that the program was started with. -/
def environment : IO CommandLine.Environment := do
  match ← attempt (IO.FS.readBinFile "/proc/self/environ") with
  | .error _ => return []
  | .ok content =>
    return (pieces '\x00' (Utf8.decode content.toList)).filterMap (cutAtFirst '=')

end Cadence.RealFiles

def main (arguments : List String) : IO UInt32 := do
  let report ← Cadence.CommandLine.run Cadence.RealFiles.access (← Cadence.RealFiles.environment)
    (arguments.map String.toList)
  (← IO.getStdout).putStr (String.ofList report.output)
  let journal ← IO.getStderr
  for error in report.errors do
    journal.putStrLn ("ERROR " ++ String.ofList error)
  if report = Cadence.CommandLine.Report.misuse then
    journal.putStr (String.ofList Cadence.CommandLine.helpText)
  return UInt32.ofNat report.exitCode
