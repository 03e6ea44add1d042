import Cadence.Text

/-!
UTF-8 in both directions. Every text has one encoding. Decoding never fails: each maximal beginning
of a sequence that does not continue as UTF-8 allows becomes one replacement character, and the byte
that broke it off is read afresh.

The decoder takes one byte at a time. Its state is the sequence that has been begun: the bits read so
far, how many bytes are still due and the range in which the next one must lie. The range is narrower
than `80..BF` only after the lead bytes `E0`, `ED`, `F0` and `F4`, which keeps out overlong forms,
surrogates and numbers beyond the last character.
-/

namespace Cadence.Utf8

def encode (text : Text) : Bytes :=
  text.flatMap String.utf8EncodeChar

/-- Stands for what could not be decoded. -/
def replacement : Char :=
  '\uFFFD'

/-- A sequence that has begun and is not complete. -/
structure Begun where
  /-- The bits read so far. -/
  bits : Nat
  /-- How many bytes are due after the next one. -/
  after : Nat
  /-- The least value that the next byte may have. -/
  least : UInt8
  /-- The greatest value that the next byte may have. -/
  greatest : UInt8
deriving DecidableEq

/-- What a byte means where no sequence has begun. -/
inductive Lead
  | ascii (c : Char)
  | begins (sequence : Begun)
  | invalid
deriving DecidableEq

/-- The classes of lead bytes. -/
def lead (byte : UInt8) : Lead :=
  if byte < 0x80 then .ascii (Char.ofNat byte.toNat)
  else if byte < 0xC2 then .invalid
  else if byte < 0xE0 then .begins ⟨byte.toNat % 32, 0, 0x80, 0xBF⟩
  else if byte = 0xE0 then .begins ⟨0, 1, 0xA0, 0xBF⟩
  else if byte = 0xED then .begins ⟨13, 1, 0x80, 0x9F⟩
  else if byte < 0xF0 then .begins ⟨byte.toNat % 16, 1, 0x80, 0xBF⟩
  else if byte = 0xF0 then .begins ⟨0, 2, 0x90, 0xBF⟩
  else if byte < 0xF4 then .begins ⟨byte.toNat % 8, 2, 0x80, 0xBF⟩
  else if byte = 0xF4 then .begins ⟨4, 2, 0x80, 0x8F⟩
  else .invalid

/-- Decodes, given the sequence that the bytes before have begun. -/
def decodeFrom : Option Begun → Bytes → Text
  | none, [] => []
  | some _, [] => [replacement]
  | none, byte :: rest =>
    match lead byte with
    | .ascii c => c :: decodeFrom none rest
    | .begins sequence => decodeFrom (some sequence) rest
    | .invalid => replacement :: decodeFrom none rest
  | some sequence, byte :: rest =>
    if sequence.least ≤ byte ∧ byte ≤ sequence.greatest then
      let bits := 64 * sequence.bits + byte.toNat % 64
      match sequence.after with
      | 0 => Char.ofNat bits :: decodeFrom none rest
      | due + 1 => decodeFrom (some ⟨bits, due, 0x80, 0xBF⟩) rest
    else
      replacement :: match lead byte with
        | .ascii c => c :: decodeFrom none rest
        | .begins next => decodeFrom (some next) rest
        | .invalid => replacement :: decodeFrom none rest

/-- The text of the bytes, with replacement characters where they are not UTF-8. -/
def decode (bytes : Bytes) : Text :=
  decodeFrom none bytes

/-- The bytes are the encoding of some text. -/
def isValid (bytes : Bytes) : Bool :=
  encode (decode bytes) = bytes

/-- The text of the bytes, where they are UTF-8 throughout. -/
def decode? (bytes : Bytes) : Option Text :=
  if isValid bytes then some (decode bytes) else none

/-! ## Positions

A position in a text counts the bytes before it. Not every number of bytes is one: it may fall inside the
sequence of a character. -/

/-- The number of bytes of a text. -/
def byteLength : Text → Nat
  | [] => 0
  | c :: rest => c.utf8Size + byteLength rest

/-- The text before and after a position, if the number is one. -/
def cutAt? : Nat → Text → Option (Text × Text)
  | 0, text => some ([], text)
  | _ + 1, [] => none
  | position + 1, c :: rest =>
    if c.utf8Size ≤ position + 1 then
      (cutAt? (position + 1 - c.utf8Size) rest).map fun parts => (c :: parts.1, parts.2)
    else none

/-- The text from one position to another, if both numbers are positions and in this order. -/
def slice? (start stop : Nat) (text : Text) : Option Text :=
  (cutAt? stop text).bind fun parts => (cutAt? start parts.1).map Prod.snd

end Cadence.Utf8
