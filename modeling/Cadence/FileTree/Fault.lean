import Cadence.Failure

/-!
The errors that operations on files meet, with their customary words and numbers.
-/

namespace Cadence

/-- An error in the customary wording of a system: its words and then its number. -/
def IoError.numbered (kind : IoErrorKind) (words : String) (number : Nat) : IoError where
  kind
  message := words.toList ++ " (os error ".toList ++ Decimal.write number ++ [')']

/-- Why an operation on a path cannot be done. -/
inductive FileFault
  | notFound
  | notADirectory
  | isADirectory
  | nameTooLong
  | tooManyLinks
  /-- The path ends at a root, a `.` or a `..`, which cannot be renamed. -/
  | busy
  /-- The path holds a NUL. -/
  | embeddedNul
deriving DecidableEq

/-- The fault as an error. -/
def FileFault.error : FileFault → IoError
  | notFound => .numbered .notFound "No such file or directory" 2
  | notADirectory => .numbered .notADirectory "Not a directory" 20
  | isADirectory => .numbered .isADirectory "Is a directory" 21
  | nameTooLong => .numbered .nameTooLong "File name too long" 36
  | tooManyLinks => .numbered .tooManyLinks "Too many levels of symbolic links" 40
  | busy => .numbered .busy "Device or resource busy" 16
  | embeddedNul => ⟨.invalidInput, "file name contained an unexpected NUL byte".toList⟩

end Cadence
