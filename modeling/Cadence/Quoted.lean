import Cadence.Text
import Cadence.Unicode.Combining
import Cadence.Unicode.Unprintable

/-!
Quoted texts: between double quotes, with a backslash before a quote or a backslash, the usual letters
for tab, newline, carriage return and NUL, and the number of every other character that would not
show by itself.
-/

namespace Cadence.Quoted

/-- The character as its number, in hexadecimal between braces. -/
def byNumber (c : Char) : Text :=
  ['\\', 'u', '\x7b'] ++ Nat.toDigits 16 c.toNat ++ ['\x7d']

/-- The written form of one character. -/
def char (c : Char) : Text :=
  if c = '\x00' then ['\\', '0']
  else if c = '\t' then ['\\', 't']
  else if c = '\r' then ['\\', 'r']
  else if c = '\n' then ['\\', 'n']
  else if c = '\\' ∨ c = '"' then ['\\', c]
  else if Unicode.isCombining c || Unicode.isUnprintable c then byNumber c
  else [c]

def text (content : Text) : Text :=
  '"' :: content.flatMap char ++ ['"']

end Cadence.Quoted
