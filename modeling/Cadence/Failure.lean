import Cadence.Decimal
import Cadence.Path
import Cadence.Quoted

/-!
What can go wrong, by cause. A failure of an input or output operation carries the path and the error
that the operation met; a fault of the settings names the option or the path at fault. The wording of
all of them is in the `message` functions, and the exit codes are those customary for a missing input
(66), bad data (65), an input or output error (74) and a bad configuration (78).
-/

namespace Cadence

/-- The kinds of errors that input and output operations tell apart. -/
inductive IoErrorKind
  | notFound
  | permissionDenied
  | alreadyExists
  | invalidInput
  | invalidData
  | unexpectedEof
  | interrupted
  | notADirectory
  | isADirectory
  | nameTooLong
  | tooManyLinks
  | busy
  | other
deriving DecidableEq, Repr

/-- An error of an input or output operation: its kind and how it is worded. -/
structure IoError where
  kind : IoErrorKind
  message : Text
deriving DecidableEq

/-- What is wrong with the settings of a run. -/
inductive SettingsFault
  /-- A segment of the options has no `=`. -/
  | missingEquals (segment : Text)
  /-- There is no option of this name. -/
  | unknownOption (name : Text)
  /-- This is no sampling interval. -/
  | badInterval (text : Text)
  /-- This is no elapsed format. -/
  | badElapsedFormat (text : Text)
  /-- Outputs would have the names of their logs. -/
  | emptySuffix
  /-- Several logs need a directory for their outputs. -/
  | outputNotDirectory (output : Path) (logs : Nat)
  /-- The output is the log itself. -/
  | outputReplacesLog (output : Path)
  /-- Some other fault, in words. -/
  | worded (text : Text)
deriving DecidableEq

/-- How a fault of the settings is worded. -/
def SettingsFault.message : SettingsFault → Text
  | .missingEquals segment => "missing '=' in option ".toList ++ segment.bracketed
  | .unknownOption name => "unknown option ".toList ++ name.bracketed
  | .badInterval text => "invalid interval ".toList ++ text.bracketed
  | .badElapsedFormat text =>
    "invalid elapsed format ".toList ++ text.bracketed ++ ", expected seconds or duration".toList
  | .emptySuffix => "suffix must not be empty, the output would replace the input".toList
  | .outputNotDirectory output logs =>
    "output ".toList ++ Quoted.text output.text ++ " must be a directory for ".toList
      ++ Decimal.write logs ++ " input files".toList
  | .outputReplacesLog output =>
    "output ".toList ++ Quoted.text output.text ++ " would replace the input log".toList
  | .worded text => text

/-- What ends a run early. -/
inductive Failure
  /-- The input is not there or may not be read. -/
  | notFound (path : Path) (cause : IoError)
  /-- The stamp of a matching line names no real time; lines count from 1. -/
  | badTimestamp (line : Nat) (stamp : Text)
  /-- An operation on a file met an error. -/
  | io (path : Path) (cause : IoError)
  /-- The table could not be handed on to its file. -/
  | csv (path : Path) (cause : IoError)
  /-- The settings are at fault. -/
  | settings (fault : SettingsFault)
  /-- The next sample would be due beyond the range of spans. -/
  | overflow
deriving DecidableEq

namespace Failure

/-- The failure to open an input: an input that is missing or barred counts as not found. -/
def opening (path : Path) (cause : IoError) : Failure :=
  if cause.kind = .notFound ∨ cause.kind = .permissionDenied then .notFound path cause
  else .io path cause

/-- How a failure is worded. -/
def message : Failure → Text
  | .notFound path cause => "input not found: ".toList ++ path.text ++ ": ".toList ++ cause.message
  | .badTimestamp line stamp =>
    "invalid timestamp on line ".toList ++ Decimal.write line ++ ": ".toList ++ stamp.bracketed
  | .io path cause => "i/o error on ".toList ++ path.text ++ ": ".toList ++ cause.message
  | .csv path cause => "csv error on ".toList ++ path.text ++ ": ".toList ++ cause.message
  | .settings fault => "configuration error: ".toList ++ fault.message
  | .overflow => "`TimeDelta + TimeDelta` overflowed".toList

/-- The errors underneath a failure, outermost first. -/
def causes : Failure → List IoError
  | .notFound _ cause => [cause]
  | .io _ cause => [cause]
  | .csv _ cause => [cause, cause]
  | .badTimestamp _ _ => []
  | .settings _ => []
  | .overflow => []

/-- The failure and the errors underneath it, in one line. -/
def report (failure : Failure) : Text :=
  List.intercalate ": ".toList (failure.message :: failure.causes.map IoError.message)

/-- The exit code of a program that ends with this failure. -/
def exitCode : Failure → Nat
  | .notFound _ _ => 66
  | .badTimestamp _ _ => 65
  | .io _ _ => 74
  | .csv _ _ => 74
  | .settings _ => 78
  | .overflow => 101

end Failure

end Cadence
