import Cadence.Utf8

/-!
Records of comma-separated values. Fields are parted by commas and a newline ends the record. A field
is put between double quotes if it holds a comma, a quote, a carriage return or a newline, and a quote
inside it is then written twice.

A record is written as a sequence of atoms, each of which goes into a buffer whole: a pair of quotes
that stands for one quote is never torn apart.
-/

namespace Cadence.Csv

def comma : UInt8 := 44

def quote : UInt8 := 34

/-- The byte of the newline, which ends a record. -/
def newline : UInt8 := 10

def carriageReturn : UInt8 := 13

/-- A byte that a field may hold only between quotes. -/
def isSpecial (byte : UInt8) : Bool :=
  byte = comma || byte = quote || byte = carriageReturn || byte = newline

/-- Bytes that are written together. -/
abbrev Atom := Bytes

/-- A byte inside a quoted field. -/
def quotedByte (byte : UInt8) : Atom :=
  if byte = quote then [quote, quote] else [byte]

def fieldAtoms (field : Bytes) : List Atom :=
  if field.any isSpecial then [quote] :: field.map quotedByte ++ [[quote]]
  else field.map fun byte => [byte]

/-- The atoms of fields in a row, with a comma before each but the first. -/
def fieldsAtoms : List Bytes → List Atom
  | [] => []
  | [field] => fieldAtoms field
  | field :: rest => fieldAtoms field ++ [comma] :: fieldsAtoms rest

def recordAtoms (fields : List Text) : List Atom :=
  fieldsAtoms (fields.map Utf8.encode) ++ [[newline]]

def record (fields : List Text) : Bytes :=
  (recordAtoms fields).flatten

end Cadence.Csv
