import Cadence.Failure
import Cadence.Time.Timestamp
import Cadence.Unicode.Basic

/-!
Samples: what a line of a log says about the height at a point in time. Such a line begins with a
stamp, nineteen characters in the shape `dddd-dd-dd dd:dd:dd`, and further on carries a marker:
` height=`, digits and a space. Of several markers the last one counts. A digit may be one of any
script, in the shape of the stamp as in the height; the stamp must then be a real date and time in the
digits `0` to `9`. Only the text up to the first newline is looked at.
-/

namespace Cadence

/-- A height at a point in time. -/
structure Sample where
  /-- The stamp, as it stands in the log. -/
  stamp : Text
  time : Timestamp
  /-- The digits of the height, as they stand in the log. -/
  height : Text
deriving DecidableEq

/-- What a line carries before its stamp is read. -/
structure Marked where
  stamp : Text
  height : Text
deriving DecidableEq

namespace Marked

/-- The shape of a stamp; `d` stands for a digit and all else for itself. -/
def stampShape : Text := "dddd-dd-dd dd:dd:dd".toList

def label : Text := " height=".toList

/-- The character fits the one of the shape. -/
def fits (shape c : Char) : Bool :=
  if shape = 'd' then Unicode.isDecimalDigit c else c = shape

/-- Takes characters that fit a shape off the front of a text. -/
def takeShape? : Text → Text → Option (Text × Text)
  | [], rest => some ([], rest)
  | _ :: _, [] => none
  | shape :: shapes, c :: rest =>
    if fits shape c then (takeShape? shapes rest).map fun parts => (c :: parts.1, parts.2) else none

/-- The height of a marker that begins here. -/
def heightHere? (text : Text) : Option Text :=
  match label.isPrefixOf? text with
  | none => none
  | some rest =>
    let digits := rest.takeWhile Unicode.isDecimalDigit
    if !digits.isEmpty && (rest.dropWhile Unicode.isDecimalDigit).head? = some ' ' then some digits
    else none

/-- The height of the last marker in a text. -/
def lastHeight? : Text → Option Text
  | [] => none
  | c :: rest => match lastHeight? rest with
    | some height => some height
    | none => heightHere? (c :: rest)

/-- The stamp and the height of a line, if it has both. -/
def ofLine? (line : Text) : Option Marked :=
  (takeShape? stampShape (line.takeWhile (· ≠ '\n'))).bind fun parts =>
    (lastHeight? parts.2).map fun height => ⟨parts.1, height⟩

end Marked

/-- Reads the line with this number: its sample, or nothing if it carries none. -/
def Sample.ofLine (number : Nat) (line : Text) : Except Failure (Option Sample) :=
  match Marked.ofLine? line with
  | none => .ok none
  | some marked => match Timestamp.ofStamp? marked.stamp with
    | none => .error (.badTimestamp number marked.stamp)
    | some time => .ok (some ⟨marked.stamp, time, marked.height⟩)

end Cadence
