import Cadence.Text

/-!
Decimal numerals in the digits `0` to `9`. Reading takes leading zeros and any length; writing gives
the numeral without leading zeros, or padded to two digits for the fields of a clock.
-/

namespace Cadence.Decimal

def digit? (c : Char) : Option Nat :=
  if '0' ≤ c ∧ c ≤ '9' then some (c.toNat - 48) else none

def digitChar (n : Nat) : Char :=
  Char.ofNat (48 + n)

/-- The value of a run of digits that follows digits worth `value`. -/
def extend? (value : Nat) : Text → Option Nat
  | [] => some value
  | c :: rest => (digit? c).bind fun d => extend? (10 * value + d) rest

/-- The value of a numeral: one digit or more and nothing else. -/
def read? (text : Text) : Option Nat :=
  if text.isEmpty then none else extend? 0 text

/-- The numeral of a natural number, without leading zeros. -/
def write (n : Nat) : Text :=
  if n < 10 then [digitChar n] else write (n / 10) ++ [digitChar (n % 10)]
termination_by n

/-- The numeral of an integer: a minus sign marks the negative ones. -/
def writeInt (n : Int) : Text :=
  if n < 0 then '-' :: write n.natAbs else write n.natAbs

/-- The last two digits, zeros included. -/
def writeTwo (n : Nat) : Text :=
  [digitChar (n / 10 % 10), digitChar (n % 10)]

end Cadence.Decimal
