import Cadence.CommandLine.Pattern.Escape
import Cadence.Unicode.Alphabetic

/-!
Reading what may stand between an opening parenthesis and the expression after it: a name or flags. Flags
that a closing parenthesis follows make no group.
-/

namespace Cadence.CommandLine.Pattern

/-- What an opening parenthesis begins. -/
inductive Opening
  | group (name : Option Text) (changes : FlagChanges)
  | flags (changes : FlagChanges)
deriving DecidableEq

/-! ## Names -/

/-- A character that the name of a group can begin with. -/
def isNameStart (c : Char) : Bool :=
  c = '_' || Unicode.isAlphabetic c

def isNamePart (c : Char) : Bool :=
  c = '_' || c = '.' || c = '[' || c = ']' || Unicode.isAlphanumeric c

/-- Reads the name of a group and the bracket after it. -/
def readName? (text : Text) : Option (Opening × Text) :=
  match cutAtFirst '>' text with
  | some (first :: others, rest) =>
    if isNameStart first && others.all isNamePart then
      some (.group (some (first :: others)) FlagChanges.none, rest)
    else none
  | _ => none

/-! ## Flags -/

def flagLetters : List Char := ['i', 'm', 's', 'U', 'u', 'R', 'x']

/-- Where the reading of flags stands. -/
inductive FlagSign
  /-- The flags are set. -/
  | positive
  /-- The minus sign has just been given. -/
  | turned
  /-- The flags are cleared. -/
  | negative
deriving DecidableEq

/-- The changes with one more, for a flag that has not been given before. -/
def FlagChanges.add? (changes : FlagChanges) (sign : FlagSign) (flag : Char) : Option FlagChanges :=
  if flag ∉ flagLetters ∨ flag ∈ changes.on ∨ flag ∈ changes.off then Option.none
  else if sign = .positive then some { changes with on := flag :: changes.on }
  else some { changes with off := flag :: changes.off }

/-- Reads flags and what ends them. Each may be given once, and so may the minus sign, which cannot come
last. -/
def readFlags? : FlagSign → FlagChanges → Text → Option (Opening × Text)
  | _, _, [] => none
  | sign, changes, c :: rest =>
    if c = ':' then if sign = .turned then none else some (.group none changes, rest)
    else if c = ')' then
      if sign = .turned ∨ changes = FlagChanges.none then none else some (.flags changes, rest)
    else if c = '-' then if sign = .positive then readFlags? .turned changes rest else none
    else match changes.add? sign c with
      | none => none
      | some changes => readFlags? (if sign = .turned then .negative else sign) changes rest

/-- Reads what follows an opening parenthesis. -/
def Opening.read? (spaced : Bool) (text : Text) : Option (Opening × Text) :=
  match skip spaced text with
  | '?' :: 'P' :: '<' :: rest => readName? rest
  | '?' :: '<' :: rest => readName? rest
  | '?' :: rest => readFlags? .positive FlagChanges.none rest
  | rest => some (.group none FlagChanges.none, rest)

end Cadence.CommandLine.Pattern
