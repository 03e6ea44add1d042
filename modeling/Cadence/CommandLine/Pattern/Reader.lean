import Cadence.CommandLine.Pattern.Class
import Cadence.CommandLine.Pattern.Group
import Cadence.CommandLine.Pattern.Meaning

/-!
Reading regular expressions. What is read are items one after another, with bars between branches and
parentheses around groups. Counted repetitions are left out: their closing brace cannot stand where these
patterns are written. A text is well formed if a matcher can be made of it, which asks for an expression that has
a meaning and is not too deep.
-/

namespace Cadence.CommandLine.Pattern

/-- How far a group or a whole pattern has been read. -/
structure Progress where
  /-- White space does not count from here on. -/
  spaced : Bool
  /-- The names that groups have been given anywhere before. -/
  names : List Text
  /-- The branches that have ended, last first. -/
  branches : List Expr
  /-- The items of the branch, last first. -/
  items : List Expr

namespace Progress

def start : Progress := ⟨false, [], [], []⟩

def add (progress : Progress) (item : Expr) : Progress :=
  { progress with items := item :: progress.items }

/-- The branches so far with the one that is being read. -/
def ended (progress : Progress) : List Expr :=
  .sequence progress.items.reverse :: progress.branches

def nextBranch (progress : Progress) : Progress :=
  { progress with branches := progress.ended, items := [] }

def expr (progress : Progress) : Expr :=
  .choice progress.ended.reverse

def change (progress : Progress) (changes : FlagChanges) : Progress :=
  { progress.add (.flags changes) with spaced := changes.after 'x' progress.spaced }

/-- The last item is repeated. There has to be one, and flags cannot be repeated. -/
def repeat? (progress : Progress) : Option Progress :=
  match progress.items with
  | [] => none
  | .flags _ :: _ => none
  | item :: items => some { progress with items := .repeated item :: items }

/-- At the start of a group. A name can be given once. -/
def enter? (progress : Progress) (name : Option Text) (changes : FlagChanges) : Option Progress :=
  let inside := fun names => some ⟨changes.after 'x' progress.spaced, names, [], []⟩
  match name with
  | none => inside progress.names
  | some name => if name ∈ progress.names then none else inside (name :: progress.names)

end Progress

/-- Takes off the sign that may follow a repetition immediately. -/
def afterLazy : Text → Text
  | '?' :: rest => rest
  | text => text

/-- Reads up to the parenthesis that closes the group around, or to the end, and gives what is left. Every
round takes a character of the text at least, so that more rounds than it has characters are enough. -/
def readItems? : Nat → Progress → Text → Option (Progress × Text)
  | 0, _, _ => none
  | rounds + 1, progress, text => match skip progress.spaced text with
    | [] => some (progress, [])
    | c :: rest =>
      if c = ')' then some (progress, c :: rest)
      else if c = '|' then readItems? rounds progress.nextBranch rest
      else if c = '(' then match Opening.read? progress.spaced rest with
        | none => none
        | some (.flags changes, rest) => readItems? rounds (progress.change changes) rest
        | some (.group name changes, rest) => match progress.enter? name changes with
          | none => none
          | some inside => match readItems? rounds inside rest with
            | some (inside, ')' :: rest) =>
              let group := Expr.group changes inside.expr
              readItems? rounds { progress.add group with names := inside.names } rest
            | _ => none
      else if c = '*' ∨ c = '+' ∨ c = '?' then match progress.repeat? with
        | none => none
        | some progress => readItems? rounds progress (afterLazy rest)
      else if c = '[' then match readClass? progress.spaced rest with
        | none => none
        | some (item, rest) => readItems? rounds (progress.add item) rest
      else if c = '\x7b' then none
      else match readAtom? progress.spaced c rest with
        | none => none
        | some (atom, rest) => readItems? rounds (progress.add (.atom atom)) rest

def Expr.read? (text : Text) : Option Expr :=
  match readItems? (text.length + 1) Progress.start text with
  | some (progress, []) => some progress.expr
  | _ => none

/-- The greatest depth that a regular expression may have. -/
def depthLimit : Nat := 250

/-- The text is a regular expression that is not too deep and has a meaning. -/
def isWellFormed (text : Text) : Bool :=
  (Expr.read? text).any fun expr => expr.depth ≤ depthLimit && expr.hasMeaning

end Cadence.CommandLine.Pattern
