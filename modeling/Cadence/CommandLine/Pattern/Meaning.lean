import Cadence.CommandLine.Pattern.Syntax

/-!
Which regular expressions have a meaning. With the flag `u`, which is set at first, an expression is about
characters. Without it it is about bytes, and it has a meaning only if it cannot match a part of a
character: nothing in it may stand for a byte that is no character by itself. Where words begin and end is
told without the flag only.
-/

namespace Cadence.CommandLine.Pattern

def Literal.isByte (literal : Literal) : Bool :=
  literal.char.toNat < 128

/-- A character that can stand in a sequence. Without the flag a number of two digits is a byte. -/
def Literal.hasMeaning (unicode : Bool) (literal : Literal) : Bool :=
  unicode || !literal.twoDigits || literal.isByte

/-- A named set that can stand anywhere. -/
def NamedSet.hasMeaning (unicode : Bool) : NamedSet → Bool
  | .plain negated => unicode || !negated
  | .category => unicode

/-- A leaf that can stand in a sequence. -/
def Atom.hasMeaning (unicode : Bool) : Atom → Bool
  | .literal char => char.hasMeaning unicode
  | .set named => named.hasMeaning unicode
  | .dot => unicode
  | .edge => true
  | .wordEdge => !unicode

mutual

/-- An item that can stand in a class. -/
def ClassItem.hasMeaning (unicode : Bool) : ClassItem → Bool
  | .literal char => unicode || char.isByte
  | .range first last => unicode || (first.isByte && last.isByte)
  | .set named => named.hasMeaning unicode
  | .nested negated inside => (unicode || !negated) && inside.hasMeaning unicode

def ClassSet.hasMeaning (unicode : Bool) : ClassSet → Bool
  | .union items => allHaveMeaning unicode items
  | .combined left right => left.hasMeaning unicode && right.hasMeaning unicode

def allHaveMeaning (unicode : Bool) : List ClassItem → Bool
  | [] => true
  | item :: rest => item.hasMeaning unicode && allHaveMeaning unicode rest

end

mutual

/-- The flag after an expression by the flag before it, if the expression has a meaning. -/
def Expr.unicodeAfter? (unicode : Bool) : Expr → Option Bool
  | .atom leaf => if leaf.hasMeaning unicode then some unicode else none
  | .bracketed negated set =>
    if (unicode || !negated) && set.hasMeaning unicode then some unicode else none
  | .repeated expr => expr.unicodeAfter? unicode
  | .group changes expr => (expr.unicodeAfter? (changes.after 'u' unicode)).map fun _ => unicode
  | .flags changes => some (changes.after 'u' unicode)
  | .sequence items => unicodeAfterAll? unicode items
  | .choice branches => unicodeAfterAll? unicode branches

/-- The flag after expressions that follow one another in the pattern, be it as branches. -/
def unicodeAfterAll? (unicode : Bool) : List Expr → Option Bool
  | [] => some unicode
  | expr :: rest => match expr.unicodeAfter? unicode with
    | none => none
    | some unicode => unicodeAfterAll? unicode rest

end

def Expr.hasMeaning (expr : Expr) : Bool :=
  (expr.unicodeAfter? true).isSome

end Cadence.CommandLine.Pattern
