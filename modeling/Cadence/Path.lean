import Cadence.Text

/-!
Paths as they are written. A path is a text that names are cut out of at every `/`. Most of its
meaning lies in its steps (`Path.steps`): empty pieces and pieces `.` count for nothing, except that a
path can begin at the root or, with `.`, at the working directory. Paths are the same as written when
they take the same steps.

A conversion derives three names: the output beside its log, the output in a directory of outputs, and the
draft that the output is written to until it is complete.
-/

namespace Cadence

/-- A path as it is written. -/
structure Path where
  text : Text
deriving DecidableEq

namespace Path

/-- One step of a path. -/
inductive Step
  /-- Begin at the root. -/
  | root
  /-- Begin at the working directory, which a leading `.` says. -/
  | here
  /-- Go up, for `..`. -/
  | up
  /-- Go to the entry of this name. -/
  | name (name : Text)
deriving DecidableEq

def isAbsolute (path : Path) : Bool :=
  path.text.head? = some '/'

def beginsHere (path : Path) : Bool :=
  (pieces '/' path.text).head? = some ['.']

/-- A piece that stands for no step. -/
def isIdle (piece : Text) : Bool :=
  piece = [] || piece = ['.']

def Step.ofPiece? (piece : Text) : Option Step :=
  if isIdle piece then none
  else if piece = ['.', '.'] then some .up
  else some (.name piece)

/-- Where the path begins, unless it simply begins with a name or with `..`. -/
def beginning (path : Path) : List Step :=
  if path.isAbsolute then [.root] else if path.beginsHere then [.here] else []

def steps (path : Path) : List Step :=
  path.beginning ++ (pieces '/' path.text).filterMap Step.ofPiece?

/-- The two paths take the same steps. -/
def isSameAsWritten (first second : Path) : Bool :=
  first.steps = second.steps

/-- The name that the path ends in. A path that ends at the root, in `..` or in nothing but `.` has
none. -/
def fileName? (path : Path) : Option Text :=
  match path.steps.getLast? with
  | some (.name name) => some name
  | _ => none

/-- The path without the name that it ends in and without the separators before it. -/
def directory (path : Path) : Path :=
  let before := ((pieces '/' path.text).reverse.dropWhile isIdle).tail.dropWhile isIdle
  if before.isEmpty then
    ⟨if path.isAbsolute then ['/'] else if path.beginsHere then ['.'] else []⟩
  else ⟨List.intercalate ['/'] before.reverse⟩

/-- A further path, taken from `path`. An absolute one stands for itself. -/
def join (path further : Path) : Path :=
  if further.isAbsolute then further
  else if path.text = [] ∨ path.text.getLast? = some '/' then ⟨path.text ++ further.text⟩
  else ⟨path.text ++ '/' :: further.text⟩

/-- The path with another name at its end, or with the name put after it if it ends in none. -/
def withFileName (path : Path) (name : Text) : Path :=
  match path.fileName? with
  | some _ => path.directory.join ⟨name⟩
  | none => path.join ⟨name⟩

/-! ## Derived names -/

/-- The path with a suffix put at its end, as `debug.log` gives `debug.log.csv`. -/
def extended (path : Path) (suffix : Text) : Path :=
  ⟨path.text ++ suffix⟩

/-- The last name of a path, or all of it where it has none. -/
def lastName (path : Path) : Text :=
  path.fileName?.getD path.text

/-- The output for a log when the outputs go to a directory. -/
def outputInside (directory log : Path) (suffix : Text) : Path :=
  (directory.join ⟨log.lastName⟩).extended suffix

/-- The draft of an output: its sibling with a dot before the name, which hides it. -/
def draft (output : Path) : Path :=
  output.withFileName ('.' :: output.lastName)

end Path

end Cadence
