import Cadence.CommandLine.Pattern.Syntax

/-!
Reading the leaves of a regular expression: plain characters and what a backslash governs. Patterns can be
spaced: white space then does not count, nor does anything from a number sign to the end of its line.
-/

namespace Cadence.CommandLine.Pattern

/-! ## Spaced patterns -/

/-- Leaves out white space and comments at the start of a text, which may begin in a comment. -/
def afterSpace : Bool → Text → Text
  | _, [] => []
  | true, c :: rest => afterSpace (c ≠ '\n') rest
  | false, c :: rest =>
    if c = '#' then afterSpace true rest
    else if Unicode.isWhiteSpace c then afterSpace false rest
    else c :: rest

/-- What is left of a pattern once white space and comments that do not count are left out. -/
def skip (spaced : Bool) (text : Text) : Text :=
  if spaced then afterSpace false text else text

/-! ## Characters by number -/

/-- The value of a hexadecimal digit. -/
def hexDigit? (c : Char) : Option Nat :=
  if '0' ≤ c ∧ c ≤ '9' then some (c.toNat - 48)
  else if 'a' ≤ c ∧ c ≤ 'f' then some (c.toNat - 87)
  else if 'A' ≤ c ∧ c ≤ 'F' then some (c.toNat - 55)
  else none

/-- Reads as many hexadecimal digits as are due onto a value. -/
def readDigits? (spaced : Bool) : Nat → Nat → Text → Option (Nat × Text)
  | 0, value, text => some (value, text)
  | due + 1, value, text => match skip spaced text with
    | [] => none
    | c :: rest => match hexDigit? c with
      | none => none
      | some digit => readDigits? spaced due (16 * value + digit) rest

/-- The number of digits that a letter after a backslash announces. -/
def announced? : Char → Option Nat
  | 'x' => some 2
  | 'u' => some 4
  | 'U' => some 8
  | _ => none

/-- Reads a character that is written by a number of so many digits. -/
def readNumbered? (spaced : Bool) (digits : Nat) (text : Text) : Option (Literal × Text) :=
  match readDigits? spaced digits 0 text with
  | none => none
  | some (value, rest) =>
    if value.isValidChar then some (⟨Char.ofNat value, digits = 2⟩, rest) else none

/-! ## Leaves -/

/-- The character that a letter after a backslash stands for. -/
def control? : Char → Option Char
  | 'a' => some '\x07'
  | 'f' => some '\x0c'
  | 't' => some '\t'
  | 'n' => some '\n'
  | 'r' => some '\r'
  | 'v' => some '\x0b'
  | _ => none

/-- A character that stands for itself after a backslash. -/
def isEscapable (c : Char) : Bool :=
  c.toNat < 128 && !c.isAlphanum && c ≠ '<' && c ≠ '>'

/-- What a backslash makes of a single character. -/
def escaped? (c : Char) : Option Atom :=
  if c ∈ ['d', 's', 'w'] then some (.set (.plain false))
  else if c ∈ ['D', 'S', 'W'] then some (.set (.plain true))
  else if c ∈ ['A', 'z'] then some .edge
  else if c ∈ ['b', 'B', '<', '>'] then some .wordEdge
  else if isEscapable c then some (.literal ⟨c, false⟩)
  else (control? c).map fun c => .literal ⟨c, false⟩

def isCategory (c : Char) : Bool :=
  c.toLower ∈ ['c', 'l', 'm', 'n', 'p', 's', 'z']

/-- Reads what follows a backslash. -/
def readEscape? (spaced : Bool) : Text → Option (Atom × Text)
  | [] => none
  | c :: rest => match announced? c with
    | some digits =>
      (readNumbered? spaced digits rest).map fun (literal, rest) => (.literal literal, rest)
    | none =>
      if c = 'p' ∨ c = 'P' then match skip spaced rest with
        | [] => none
        | letter :: rest => if isCategory letter then some (.set .category, rest) else none
      else (escaped? c).map fun atom => (atom, rest)

/-- Reads a leaf by its first character and what follows it. -/
def readAtom? (spaced : Bool) (c : Char) (rest : Text) : Option (Atom × Text) :=
  if c = '\\' then readEscape? spaced rest
  else if c = '.' then some (.dot, rest)
  else if c = '^' ∨ c = '$' then some (.edge, rest)
  else some (.literal ⟨c, false⟩, rest)

end Cadence.CommandLine.Pattern
