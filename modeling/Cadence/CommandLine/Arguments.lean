import Cadence.Text

/-!
The arguments of the program: one input and the options `--output` and `--options`, whose value follows
in the next argument or after `=`. `--` ends the options. Asking for the version or for help ends the
reading of the arguments at once, and so does the first misuse.
-/

namespace Cadence.CommandLine

/-- What the arguments ask for. -/
inductive Request
  /-- Convert an input. -/
  | convert (input : Text) (output options : Option Text)
  /-- Tell the version. -/
  | version
  /-- Tell how the program is used. -/
  | help
  /-- The arguments ask for nothing that the program does. -/
  | misuse
deriving DecidableEq

/-- The options that take a value. -/
inductive Valued
  | output
  | options
deriving DecidableEq

/-- The arguments read so far. -/
structure Given where
  input : Option Text
  output : Option Text
  options : Option Text
deriving DecidableEq

namespace Given

def nothing : Given := ⟨none, none, none⟩

/-- With the value of an option, which it can be given only once. -/
def withValue? (given : Given) (valued : Valued) (value : Text) : Option Given :=
  match valued with
  | .output => if given.output.isSome then none else some { given with output := some value }
  | .options => if given.options.isSome then none else some { given with options := some value }

def withInput? (given : Given) (input : Text) : Option Given :=
  if given.input.isSome then none else some { given with input := some input }

def request (given : Given) : Request :=
  match given.input with
  | none => .misuse
  | some input => .convert input given.output given.options

end Given

/-- How an argument that begins with two dashes is understood. -/
inductive Long
  | valued (option : Valued) (value : Option Text)
  | version
  | help
  | unknown
deriving DecidableEq

/-- The name of a long option and the value after `=`. -/
def cutValue (argument : Text) : Text × Option Text :=
  match cutAtFirst '=' argument with
  | none => (argument, none)
  | some (name, value) => (name, some value)

/-- Understands what follows two dashes. -/
def Long.read (argument : Text) : Long :=
  let (name, value) := cutValue argument
  if name = "output".toList then .valued .output value
  else if name = "options".toList then .valued .options value
  else if name = "version".toList ∧ value = none then .version
  else if name = "help".toList ∧ value = none then .help
  else .unknown

/-- Reads the arguments after `--`. -/
def readInputs (given : Given) : List Text → Request
  | [] => given.request
  | argument :: rest => match given.withInput? argument with
    | none => .misuse
    | some after => readInputs after rest

/-- Understands an argument that is neither the value of an option nor an option. -/
def readArguments (given : Given) (pending : Option Valued) : List Text → Request
  | [] => if pending.isSome then .misuse else given.request
  | ['-', '-'] :: rest => if pending.isSome then .misuse else readInputs given rest
  | ('-' :: '-' :: long) :: rest =>
    if pending.isSome then .misuse
    else match Long.read long with
      | .version => .version
      | .help => .help
      | .unknown => .misuse
      | .valued option none => readArguments given (some option) rest
      | .valued option (some value) => match given.withValue? option value with
        | none => .misuse
        | some after => readArguments after none rest
  | ('-' :: letter :: _) :: _ =>
    if pending.isSome then .misuse
    else if letter = 'V' then .version
    else if letter = 'h' then .help
    else .misuse
  | argument :: rest =>
    match pending with
    | some option => match given.withValue? option argument with
      | none => .misuse
      | some after => readArguments after none rest
    | none => match given.withInput? argument with
      | none => .misuse
      | some after => readArguments after none rest

def Request.ofArguments (arguments : List Text) : Request :=
  readArguments .nothing none arguments

end Cadence.CommandLine
