import Cadence.Text
import Cadence.Lines
import Cadence.Unicode.Alphabetic

/-!
The environment and the files that add to it. A file of the environment has a line `NAME=value` for each
variable, which `export` may precede. It does not override what is set already, so the first line for a
name counts. Reading ends at the first line that is not of this form; what the lines before it say has
been set by then.

A value may stand between quotes. Single quotes keep everything; elsewhere a backslash keeps the
character after it, and `$name` and `${name}` stand for the values of variables, in which only a name in
braces can hold other characters than letters and numbers. Outside quotes a value ends at a space or a
tab, after which only a comment may follow.
-/

namespace Cadence.CommandLine

abbrev Environment := List (Text × Text)

namespace Environment

/-- How a variable stands in the environment. -/
def entryText (entry : Text × Text) : Text := entry.1 ++ '=' :: entry.2

/-- The value of a variable, if it is set: what follows its name and an equals sign in the first entry
that begins with both. -/
def value? (environment : Environment) (name : Text) : Option Text :=
  if name = [] then none
  else environment.findSome? fun entry => (name ++ ['=']).isPrefixOf? (entryText entry)

def value (environment : Environment) (name : Text) : Text :=
  (environment.value? name).getD []

/-- Sets a variable that is not set yet. -/
def offer (environment : Environment) (name value : Text) : Environment :=
  if (environment.value? name).isSome then environment else environment ++ [(name, value)]

end Environment

/-! ## Values -/

/-- Where in a value a character stands. -/
inductive ValueState
  /-- Outside quotes. -/
  | plain
  /-- Between single quotes. -/
  | single
  /-- Between double quotes. -/
  | double
  /-- After a backslash, which may itself be quoted. -/
  | escaped (quoted : Bool)
  /-- In a name after `$`, with its characters so far. -/
  | named (quoted : Bool) (name : Text)
  /-- In a name between braces, with its characters so far. -/
  | braced (quoted : Bool) (name : Text)
  /-- After the end. -/
  | ended
deriving DecidableEq

/-- Outside quotes or between double ones. -/
def ValueState.open (quoted : Bool) : ValueState :=
  if quoted then .double else .plain

/-- The characters that a backslash keeps as they are. -/
def isKept (c : Char) : Bool :=
  c = '\\' || c = '\'' || c = '"' || c = '$' || c = ' '

/-- Reads the rest of a value. A value that ends between quotes or braces is refused. -/
def readValue (environment : Environment) : ValueState → Text → Option Text
  | .plain, [] => some []
  | .ended, [] => some []
  | .escaped quoted, [] => if quoted then none else some []
  | .named quoted name, [] => if quoted then none else some (environment.value name)
  | .single, [] => none
  | .double, [] => none
  | .braced _ _, [] => none
  | .ended, c :: rest =>
    if c = ' ' ∨ c = '\t' then readValue environment .ended rest
    else if c = '#' then some []
    else none
  | .escaped quoted, c :: rest =>
    if isKept c then (readValue environment (.open quoted) rest).map (c :: ·)
    else if c = 'n' then (readValue environment (.open quoted) rest).map ('\n' :: ·)
    else none
  | .single, c :: rest =>
    if c = '\'' then readValue environment .plain rest
    else (readValue environment .single rest).map (c :: ·)
  | .named quoted name, c :: rest =>
    if Unicode.isAlphanumeric c then readValue environment (.named quoted (name ++ [c])) rest
    else if c = '\x7b' ∧ name = [] then readValue environment (.braced quoted []) rest
    else if c = '$' then
      (readValue environment (.named quoted []) rest).map (environment.value name ++ ·)
    else (readValue environment (.open quoted) rest).map (environment.value name ++ c :: ·)
  | .braced quoted name, c :: rest =>
    if c = '\x7d' then
      (readValue environment (.open quoted) rest).map (environment.value name ++ ·)
    else readValue environment (.braced quoted (name ++ [c])) rest
  | .double, c :: rest =>
    if c = '$' then readValue environment (.named true []) rest
    else if c = '"' then readValue environment .plain rest
    else if c = '\\' then readValue environment (.escaped true) rest
    else (readValue environment .double rest).map (c :: ·)
  | .plain, c :: rest =>
    if c = '$' then readValue environment (.named false []) rest
    else if c = '\'' then readValue environment .single rest
    else if c = '"' then readValue environment .double rest
    else if c = '\\' then readValue environment (.escaped false) rest
    else if c = ' ' ∨ c = '\t' then readValue environment .ended rest
    else (readValue environment .plain rest).map (c :: ·)

/-! ## Lines -/

/-- A letter or an underscore, which a name begins with. -/
def isNameStart (c : Char) : Bool :=
  c.isAlpha || c = '_'

def isNameChar (c : Char) : Bool :=
  c.isAlphanum || c = '_' || c = '.'

def skipWhite (text : Text) : Text :=
  text.dropWhile Unicode.isWhiteSpace

/-- A name and the text after it and the white space. -/
def takeName? (text : Text) : Option (Text × Text) :=
  match text with
  | [] => none
  | c :: _ =>
    if isNameStart c then some (text.takeWhile isNameChar, skipWhite (text.dropWhile isNameChar))
    else none

/-- The name that a line sets, and the text after the `=`. -/
def takeTarget? (line : Text) : Option (Text × Text) :=
  match takeName? line with
  | none => none
  | some (name, '=' :: rest) => some (name, rest)
  | some (name, rest) =>
    if name = "export".toList then
      match takeName? rest with
      | some (exported, '=' :: rest) => some (exported, rest)
      | _ => none
    else none

/-- What a line of the file says. -/
inductive EnvironmentLine
  | sets (name value : Text)
  | blank
  | malformed
deriving DecidableEq

/-- Reads a line. -/
def EnvironmentLine.read (environment : Environment) (line : Text) : EnvironmentLine :=
  let content := skipWhite (dropEndWhile Unicode.isWhiteSpace line)
  if content = [] ∨ content.head? = some '#' then .blank
  else match takeTarget? content with
    | none => .malformed
    | some (name, rest) =>
      let written := skipWhite rest
      if written = [] ∨ written.head? = some '#' then .sets name []
      else match readValue environment .plain written with
        | none => .malformed
        | some value => .sets name value

/-- The environment after a file, unless a value holds a NUL, which no variable can. -/
def Environment.load (environment : Environment) : List Bytes → Option Environment
  | [] => some environment
  | stretch :: rest => match Utf8.decode? stretch with
    | none => some environment
    | some line => match EnvironmentLine.read environment line with
      | .malformed => some environment
      | .blank => load environment rest
      | .sets name value =>
        if (environment.value? name).isSome then load environment rest
        else if '\x00' ∈ value then none
        else load (environment.offer name value) rest

def Environment.loadFile (environment : Environment) (content : Bytes) : Option Environment :=
  environment.load (Lines.stretches content)

end Cadence.CommandLine
