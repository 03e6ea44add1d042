import Cadence.CommandLine.Filter

/-!
The journal that the program keeps on standard error, as far as errors are concerned: whether a filter
lets them through, and how they are written. A filter that cannot be read counts as none, and without one
errors are let through.
-/

namespace Cadence.CommandLine.Journal

/-- The program's own messages: their target and the one field that they have. -/
def programMessage : Message := ⟨"synctime".toList, ["message".toList]⟩

/-- Errors of the program are let through by the filter that is set. There is no answer if a cut in it
falls inside a character. -/
def letsErrorsThrough? : Option Text → Option Bool
  | none => some true
  | some text => match Filter.read text with
    | .error .torn => none
    | .error .malformed => some true
    | .ok filter => some (filter.letsErrorsThrough programMessage)

/-- A character of a message, made harmless for a terminal. -/
def harmless (c : Char) : Text :=
  if c = '\x07' ∨ c = '\x08' ∨ c = '\x0c' ∨ c = '\x1b' ∨ c = '\x7f' then
    ['\\', 'x'] ++ [Nat.digitChar (c.toNat / 16), Nat.digitChar (c.toNat % 16)]
  else if 0x80 ≤ c.toNat ∧ c.toNat ≤ 0x9f then
    ['\\', 'u', '\x7b'] ++ Nat.toDigits 16 c.toNat ++ ['\x7d']
  else [c]

/-- The line of the journal that a message begins with. -/
def firstLine (message : Text) : Text :=
  (message.takeWhile (· ≠ '\n')).flatMap harmless

end Cadence.CommandLine.Journal
