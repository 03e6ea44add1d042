import Cadence.Failure

/-!
Options as they are given: `name=value` segments between semicolons. White space around a name and
around a value does not count, and blank segments count for nothing. Of several values for one name the
last one stands; of several faults the first one is reported.
-/

namespace Cadence

/-- The options there are. -/
inductive OptionName
  | interval
  | elapsed
  | suffix
  | extension
deriving DecidableEq

namespace OptionName

/-- How an option is written. -/
def text : OptionName → Text
  | interval => "interval".toList
  | elapsed => "elapsed".toList
  | suffix => "suffix".toList
  | extension => "extension".toList

/-- All options, in the order in which they are listed. -/
def all : List OptionName := [interval, elapsed, suffix, extension]

def ofText? (written : Text) : Option OptionName :=
  all.find? fun name => name.text = written

end OptionName

/-- The values that are given. -/
abbrev Assignment := OptionName → Option Text

namespace Assignment

def empty : Assignment := fun _ => none

/-- Gives one option a value, in place of any that it had. -/
def set (assignment : Assignment) (name : OptionName) (value : Text) : Assignment :=
  fun other => if other = name then some value else assignment other

/-- Reads a segment that is not blank. -/
def readSegment (segment : Text) : Except SettingsFault (OptionName × Text) :=
  match cutAtFirst '=' segment with
  | none => .error (.missingEquals segment)
  | some (name, value) => match OptionName.ofText? (Text.trim name) with
    | none => .error (.unknownOption (Text.trim name))
    | some option => .ok (option, Text.trim value)

/-- Adds what a segment says. -/
def addSegment (assignment : Assignment) (segment : Text) : Except SettingsFault Assignment :=
  if segment.isBlank then .ok assignment
  else match readSegment segment with
    | .error fault => .error fault
    | .ok (name, value) => .ok (assignment.set name value)

/-- Adds what the segments say, in order. -/
def addSegments (assignment : Assignment) : List Text → Except SettingsFault Assignment
  | [] => .ok assignment
  | segment :: rest => match assignment.addSegment segment with
    | .error fault => .error fault
    | .ok after => after.addSegments rest

def read (options : Text) : Except SettingsFault Assignment :=
  empty.addSegments (pieces ';' options)

end Assignment

end Cadence
