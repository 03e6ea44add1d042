import Cadence.CommandLine.Pattern.Reader
import Cadence.Decimal
import Cadence.Utf8

/-!
Filters of the journal. A filter is a list of directives between commas. A directive has the form
`target[span{field=value}]=level` with all parts but one left out at will, or it is a level by itself. It
is about the messages whose target begins with its target, which stand in its span and have its field.
Among those that are about a message the most specific one decides.

White space around a directive does not count when its parts are told apart, and they are told apart by
positions from its first character on. The parts are then cut out of the directive as it is written, so
that white space before it shifts every cut. A cut that falls inside a character cannot be made.
-/

namespace Cadence.CommandLine

/-! ## Levels -/

/-- How much is let through. -/
inductive Level
  | off
  | error
  | warn
  | info
  | debug
  | trace
deriving DecidableEq

namespace Level

/-- The levels, each of which lets through what the ones before it do. -/
def all : List Level := [off, error, warn, info, debug, trace]

/-- The name of a level. -/
def name : Level → Text
  | off => "off".toList
  | error => "error".toList
  | warn => "warn".toList
  | info => "info".toList
  | debug => "debug".toList
  | trace => "trace".toList

/-- A level by its number, which a plus sign may precede. -/
def ofNumber? : Text → Option Level
  | '+' :: digits => (Decimal.read? digits).bind fun n => all[n]?
  | digits => (Decimal.read? digits).bind fun n => all[n]?

/-- A level by its number, or by its name in capitals or not. -/
def ofText? (text : Text) : Option Level :=
  (ofNumber? text).or (all.find? fun level => level.name = text.map Char.toLower)

end Level

/-! ## Directives -/

/-- Why a filter cannot be read. -/
inductive FilterFault
  /-- A directive does not have the form. -/
  | malformed
  /-- A cut falls inside a character. -/
  | torn
deriving DecidableEq

/-- What a directive asks of a field: that it is there or that it has a value. -/
structure FieldTest where
  name : Text
  value : Option Text
deriving DecidableEq

/-- What a directive says. -/
structure Directive where
  target : Option Text
  span : Option Text
  field : Option FieldTest
  level : Level
deriving DecidableEq

/-- A power of ten at the end of a numeral, or nothing. -/
def isExponent : Text → Bool
  | [] => true
  | e :: power =>
    let digits := match power with
      | '+' :: digits => digits
      | '-' :: digits => digits
      | digits => digits
    e.toLower = 'e' && (Decimal.read? digits).isSome

/-- A numeral with or without a fraction and a power of ten. -/
def isNumeral (text : Text) : Bool :=
  let whole := text.takeWhile Char.isDigit
  let rest := text.dropWhile Char.isDigit
  match rest with
  | '.' :: rest =>
    (!whole.isEmpty || rest.head?.any Char.isDigit)
      && isExponent (rest.dropWhile Char.isDigit)
  | _ => !whole.isEmpty && isExponent rest

/-- The names of what is written like a number without being one. -/
def nonNumerals : List Text := ["inf".toList, "infinity".toList, "nan".toList]

def isNumber (text : Text) : Bool :=
  isNumeral text || nonNumerals.any (· = text.map Char.toLower)

/-- A value that a field can be tested for: a number or a pattern. Numbers are patterns too, but for
those with a plus sign. -/
def FieldTest.isValue (value : Text) : Bool :=
  Pattern.isWellFormed value || match value with
    | '+' :: number => isNumber number
    | _ => false

/-- Reads the test of a field. -/
def FieldTest.read? (written : Text) : Option FieldTest :=
  match pieces '=' written with
  | name :: value :: _ => if isValue value then some ⟨name, some value⟩ else none
  | [name] => if name = [] then none else some ⟨name, none⟩
  | [] => none

namespace Directive

/-- A character that a target or a level can begin with. -/
def isStart (c : Char) : Bool :=
  c = '-' || c = ':' || c = '_' || Unicode.isAlphanumeric c

/-- Cuts a part out of the directive as it is written. -/
def part (written : Text) (start stop : Nat) : Except FilterFault Text :=
  match Utf8.slice? start stop written with
  | none => .error .torn
  | some text => .ok text

/-- Reads the level that stands from a position on. Nothing stands for the highest level. -/
def readLevel (written : Text) (start : Nat) : Except FilterFault Level :=
  match Utf8.cutAt? start written with
  | none => .error .torn
  | some (_, []) => .ok .trace
  | some (_, text) => match Level.ofText? text with
    | none => .error .malformed
    | some level => .ok level

/-- Reads what follows the bracket that closes a span, at a position. -/
def readEnd (written : Text) (directive : Directive) (position : Nat) :
    Text → Except FilterFault Directive
  | [] => .ok directive
  | '=' :: _ => (readLevel written (position + 1)).map fun level => { directive with level }
  | _ => .error .malformed

/-- Reads the test of a field, which begins at a position, and what follows it. -/
def readField (written : Text) (directive : Directive) (position : Nat) (text : Text) :
    Except FilterFault Directive :=
  match cutAtFirst '\x7d' text with
  | none => .error .malformed
  | some (field, rest) =>
    let stop := position + Utf8.byteLength field
    match part written position stop with
    | .error fault => .error fault
    | .ok field => match FieldTest.read? field, rest with
      | some field, ']' :: rest => readEnd written { directive with field := some field } (stop + 2) rest
      | _, _ => .error .malformed

def isSpanChar (c : Char) : Bool := c ≠ ']' && c ≠ '\x7b'

/-- Reads a span, which begins at a position, and what follows it. -/
def readSpan (written : Text) (directive : Directive) (position : Nat) (text : Text) :
    Except FilterFault Directive :=
  let stop := position + Utf8.byteLength (text.takeWhile isSpanChar)
  match text.dropWhile isSpanChar with
  | [] => .error .malformed
  | c :: rest => match part written position stop with
    | .error fault => .error fault
    | .ok span =>
      if c = ']' then readEnd written { directive with span := some span } (stop + 1) rest
      else
        readField written { directive with span := if span = [] then none else some span } (stop + 1) rest

def isTargetChar (c : Char) : Bool := c ≠ '=' && c ≠ '['

/-- Reads a directive that begins with a target or a level. -/
def readTarget (written text : Text) : Except FilterFault Directive :=
  let stop := Utf8.byteLength (text.takeWhile isTargetChar)
  match text.dropWhile isTargetChar with
  | [] => match Level.ofText? written with
    | some level => .ok ⟨none, none, none, level⟩
    | none => .ok ⟨some written, none, none, .trace⟩
  | c :: rest => match part written 0 stop with
    | .error fault => .error fault
    | .ok target =>
      if c = '=' then
        (readLevel written (stop + 1)).map fun level => ⟨some target, none, none, level⟩
      else readSpan written ⟨some target, none, none, .trace⟩ (stop + 1) rest

/-- Reads a directive. -/
def read (written : Text) : Except FilterFault Directive :=
  match Text.trim written with
  | [] => .error .malformed
  | '[' :: rest => readSpan written ⟨none, none, none, .trace⟩ 1 rest
  | c :: rest => if isStart c then readTarget written (c :: rest) else .error .malformed

end Directive

/-! ## Filters -/

abbrev Filter := List Directive

/-- What a message brings for a filter to decide by. It stands in no span, and its fields have no values
that a filter could know beforehand. -/
structure Message where
  target : Text
  fields : List Text
deriving DecidableEq

namespace Directive

/-- The directive is about the message. -/
def concerns (directive : Directive) (message : Message) : Bool :=
  directive.span.isNone
    && directive.target.all (fun target => target.isPrefixOf message.target)
    && directive.field.all fun field => field.value.isNone && message.fields.contains field.name

/-- One directive is at least as specific as another about the same message: its target is longer, or the
targets are the same and it does not lack a field that the other one has. -/
def isAsSpecificAs (directive other : Directive) : Bool :=
  let length := fun (d : Directive) => (d.target.map List.length).getD 0
  length other < length directive
    || (length other = length directive && (other.field.isNone || directive.field.isSome))

end Directive

namespace Filter

/-- Reads directives, up to the first that cannot be read. -/
def readDirectives : List Text → Except FilterFault Filter
  | [] => .ok []
  | written :: rest => match Directive.read written with
    | .error fault => .error fault
    | .ok directive => (readDirectives rest).map (directive :: ·)

/-- Reads a filter. -/
def read (text : Text) : Except FilterFault Filter :=
  readDirectives ((pieces ',' text).filter (· ≠ []))

/-- The most specific directive about a message; of equals the last one. -/
def deciding? (filter : Filter) (message : Message) : Option Directive :=
  (filter.filter (·.concerns message)).foldl
    (fun best directive =>
      if best.all directive.isAsSpecificAs then some directive else best)
    none

/-- Errors with such a message are let through. Without a directive about it they are not. -/
def letsErrorsThrough (filter : Filter) (message : Message) : Bool :=
  (filter.deciding? message).any fun directive => directive.level ≠ .off

end Filter

end Cadence.CommandLine
