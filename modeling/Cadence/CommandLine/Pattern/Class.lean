import Cadence.CommandLine.Pattern.Escape

/-!
Reading classes of characters. Between the brackets stand characters, ranges, named sets and other classes,
one after another; a doubled sign makes an operator between what stands before and after it. At the start
of a class minus signs are characters, and so is a closing bracket.
-/

namespace Cadence.CommandLine.Pattern

/-! ## Names of classes -/

def classNames : List Text :=
  ["alnum".toList, "alpha".toList, "ascii".toList, "blank".toList, "cntrl".toList, "digit".toList,
    "graph".toList, "lower".toList, "print".toList, "punct".toList, "space".toList, "upper".toList,
    "word".toList, "xdigit".toList]

/-- Reads the name of a class, between colons and followed by a bracket. -/
def readClassName? : Text → Option (NamedSet × Text)
  | ':' :: text =>
    let (negated, text) := match text with
      | '^' :: rest => (true, rest)
      | _ => (false, text)
    match cutAtFirst ':' text with
    | some (name, ']' :: rest) =>
      if classNames.any (· = name) then some (.plain negated, rest) else none
    | _ => none
  | _ => none

/-! ## Items -/

/-- Reads a leaf within a class, where only a backslash has a meaning. -/
def readMember? (spaced : Bool) (c : Char) (rest : Text) : Option (Atom × Text) :=
  if c = '\\' then readEscape? spaced rest else some (.literal ⟨c, false⟩, rest)

/-- The item that a leaf is by itself. -/
def ClassItem.ofAtom? : Atom → Option ClassItem
  | .literal char => some (.literal char)
  | .set named => some (.set named)
  | .dot => none
  | .edge => none
  | .wordEdge => none

/-- The range between two leaves. -/
def ClassItem.between? : Atom → Atom → Option ClassItem
  | .literal first, .literal last => if first.char ≤ last.char then some (.range first last) else none
  | _, _ => none

/-- The character by which the meaning of a minus sign before it is told. In a spaced pattern it may stand
in a comment: of a number sign only the sign and the white space after it are passed over. -/
def shown? (spaced : Bool) (text : Text) : Option Char :=
  if spaced then match text.dropWhile Unicode.isWhiteSpace with
    | '#' :: rest => (rest.dropWhile Unicode.isWhiteSpace).head?
    | rest => rest.head?
  else text.head?

/-- The text follows a minus sign that makes a range with what stands before it. -/
def continuesRange (spaced : Bool) (text : Text) : Bool :=
  shown? spaced text ≠ some ']' && shown? spaced text ≠ some '-'

/-- Reads a single leaf or a range by its first character and what follows it. -/
def readItem? (spaced : Bool) (c : Char) (rest : Text) : Option (ClassItem × Text) :=
  match readMember? spaced c rest with
  | none => none
  | some (first, rest) =>
    let single := (ClassItem.ofAtom? first).map fun item => (item, skip spaced rest)
    match skip spaced rest with
    | '-' :: more =>
      if continuesRange spaced more then match skip spaced more with
        | [] => none
        | c :: rest => match readMember? spaced c rest with
          | none => none
          | some (last, rest) => (ClassItem.between? first last).map fun item => (item, rest)
      else single
    | _ => single

/-! ## Classes -/

/-- How far a class has been read. -/
structure ClassProgress where
  /-- What stands before the last operator. -/
  left : Option ClassSet
  /-- The items after it, last first. -/
  items : List ClassItem
  /-- Nothing but minus signs has been read. -/
  isFresh : Bool

namespace ClassProgress

def start : ClassProgress := ⟨none, [], true⟩

def add (progress : ClassProgress) (item : ClassItem) : ClassProgress :=
  { progress with items := item :: progress.items, isFresh := false }

/-- What has been read so far. -/
def set (progress : ClassProgress) : ClassSet :=
  let right := ClassSet.union progress.items.reverse
  match progress.left with
  | none => right
  | some left => .combined left right

def combine (progress : ClassProgress) : ClassProgress :=
  ⟨some progress.set, [], false⟩

end ClassProgress

/-- Takes the sign that negates a class off its start. -/
def readNegation (spaced : Bool) (text : Text) : Bool × Text :=
  match skip spaced text with
  | '^' :: rest => (true, rest)
  | rest => (false, rest)

/-- A character that makes an operator when it is doubled. -/
def isOperator (c : Char) : Bool :=
  c = '&' || c = '-' || c = '~'

/-- Reads a class up to its closing bracket. Every round takes a character of the text at least, so that
more rounds than it has characters are enough. -/
def readSet? (spaced : Bool) : Nat → ClassProgress → Text → Option (ClassSet × Text)
  | 0, _, _ => none
  | rounds + 1, progress, text => match skip spaced text with
    | [] => none
    | c :: rest =>
      if progress.isFresh && c = '-' then
        readSet? spaced rounds { progress.add (.literal ⟨c, false⟩) with isFresh := true } rest
      else if progress.isFresh && progress.items.isEmpty && c = ']' then
        readSet? spaced rounds (progress.add (.literal ⟨c, false⟩)) rest
      else if c = ']' then some (progress.set, rest)
      else if c = '[' then match readClassName? rest with
        | some (set, rest) => readSet? spaced rounds (progress.add (.set set)) rest
        | none =>
          let (negated, rest) := readNegation spaced rest
          match readSet? spaced rounds ClassProgress.start rest with
          | none => none
          | some (set, rest) => readSet? spaced rounds (progress.add (.nested negated set)) rest
      else if isOperator c && rest.head? = some c then
        readSet? spaced rounds progress.combine rest.tail
      else match readItem? spaced c rest with
        | none => none
        | some (item, rest) => readSet? spaced rounds (progress.add item) rest

/-- Reads a class after its opening bracket. -/
def readClass? (spaced : Bool) (text : Text) : Option (Expr × Text) :=
  let (negated, rest) := readNegation spaced text
  (readSet? spaced (rest.length + 1) ClassProgress.start rest).map fun (set, rest) =>
    (.bracketed negated set, rest)

end Cadence.CommandLine.Pattern
