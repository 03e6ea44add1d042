import Cadence.Text

/-!
Regular expressions as trees. Kept is what decides whether a matcher can be made of one: which characters
a class names is kept only where it matters to that.

The depth of a tree counts the nodes that hold others on the way down to a leaf. A sequence of one item is
no node of its own, and neither is a choice between one branch.
-/

namespace Cadence.CommandLine.Pattern

/-! ## Leaves -/

/-- A character that stands for itself. -/
structure Literal where
  char : Char
  /-- It is written by a number of two digits, which can also be that of a byte. -/
  twoDigits : Bool
deriving DecidableEq

/-- A set of characters that has a name. -/
inductive NamedSet
  /-- Digits, white space, the characters of words or others of the kind; or all the rest. -/
  | plain (negated : Bool)
  /-- The characters of a general category, or all the rest. -/
  | category
deriving DecidableEq

/-- A leaf of a regular expression. -/
inductive Atom
  | literal (literal : Literal)
  | set (set : NamedSet)
  /-- Any character but a line break. -/
  | dot
  /-- Where the text or a line begins or ends. -/
  | edge
  /-- Where a word begins or ends, or where none does. -/
  | wordEdge
deriving DecidableEq

/-! ## Classes -/

mutual

/-- What stands between the brackets of a class. -/
inductive ClassItem
  | literal (literal : Literal)
  | range (first last : Literal)
  | set (set : NamedSet)
  /-- A class within the class. -/
  | nested (negated : Bool) (set : ClassSet)

/-- The characters that the brackets of a class give: those of all items, or what an operator makes of
two such sets. -/
inductive ClassSet
  | union (items : List ClassItem)
  | combined (left right : ClassSet)

end

/-! ## Expressions -/

/-- The flags that a group or an item of its own sets and clears. -/
structure FlagChanges where
  on : List Char
  off : List Char
deriving DecidableEq

namespace FlagChanges

def none : FlagChanges := ⟨[], []⟩

/-- Whether a flag is set after the changes, by what it was before them. -/
def after (changes : FlagChanges) (flag : Char) (before : Bool) : Bool :=
  if flag ∈ changes.on then true else if flag ∈ changes.off then false else before

end FlagChanges

/-- A regular expression. -/
inductive Expr
  | atom (atom : Atom)
  | bracketed (negated : Bool) (set : ClassSet)
  | repeated (expr : Expr)
  /-- An expression between parentheses; the changes end with it. -/
  | group (changes : FlagChanges) (expr : Expr)
  /-- Changes up to the end of the group around them. -/
  | flags (changes : FlagChanges)
  | sequence (items : List Expr)
  | choice (branches : List Expr)

/-! ## Depth -/

/-- The depth of a list of trees by their number and the greatest depth among them: a list of two or more
is a node. -/
def listDepth (count deepest : Nat) : Nat :=
  if count ≤ 1 then deepest else deepest + 1

mutual

/-- The depth of an item of a class. -/
def ClassItem.depth : ClassItem → Nat
  | .literal _ => 0
  | .range _ _ => 0
  | .set _ => 0
  | .nested _ inside => inside.depth + 1

def ClassSet.depth : ClassSet → Nat
  | .union items => listDepth items.length (deepestItem items)
  | .combined left right => max left.depth right.depth + 1

def deepestItem : List ClassItem → Nat
  | [] => 0
  | item :: rest => max item.depth (deepestItem rest)

end

mutual

/-- The depth of an expression. -/
def Expr.depth : Expr → Nat
  | .atom _ => 0
  | .bracketed _ set => set.depth + 1
  | .repeated expr => expr.depth + 1
  | .group _ expr => expr.depth + 1
  | .flags _ => 0
  | .sequence items => listDepth items.length (deepest items)
  | .choice branches => listDepth branches.length (deepest branches)

def deepest : List Expr → Nat
  | [] => 0
  | expr :: rest => max expr.depth (deepest rest)

end

end Cadence.CommandLine.Pattern
