import Cadence.Unicode.Basic

/-!
Text as a list of characters, and the few ways in which this library takes it apart: cutting it at
every separator, cutting it at the first one, and trimming the white space off its ends. Texts are sorted by
their characters, which is also the order of their UTF-8 bytes.
-/

namespace Cadence

/-- Text is the list of its characters. -/
abbrev Text := List Char

/-- What a file holds. -/
abbrev Bytes := List UInt8

/-- The pieces between the occurrences of a separator: one more than there are occurrences. -/
def pieces {α : Type} [DecidableEq α] (separator : α) : List α → List (List α)
  | [] => [[]]
  | x :: rest =>
    if x = separator then [] :: pieces separator rest
    else match pieces separator rest with
      | [] => [[x]]
      | first :: others => (x :: first) :: others

/-- What stands before and after the first occurrence of a separator, if there is one. -/
def cutAtFirst {α : Type} [DecidableEq α] (separator : α) : List α → Option (List α × List α)
  | [] => none
  | x :: rest =>
    if x = separator then some ([], rest)
    else (cutAtFirst separator rest).map fun parts => (x :: parts.1, parts.2)

/-- Takes the elements with a property off the end of a list. -/
def dropEndWhile {α : Type} (p : α → Bool) (xs : List α) : List α :=
  (xs.reverse.dropWhile p).reverse

namespace Text

def trim (text : Text) : Text :=
  dropEndWhile Unicode.isWhiteSpace (text.dropWhile Unicode.isWhiteSpace)

def isBlank (text : Text) : Bool :=
  text.all Unicode.isWhiteSpace

/-- Between square brackets, as messages quote what they complain of. -/
def bracketed (text : Text) : Text :=
  '[' :: text ++ [']']

/-- Whether a text comes before another: at the first difference the lesser character decides, and a
text comes before its extensions. -/
def precedes : Text → Text → Bool
  | _, [] => false
  | [], _ :: _ => true
  | a :: as, b :: bs => a < b || (a = b && precedes as bs)

end Text

/-- Puts an element in its place by the text that it is sorted by. -/
def insertBy {α : Type} (key : α → Text) (x : α) : List α → List α
  | [] => [x]
  | y :: rest => if (key y).precedes (key x) then y :: insertBy key x rest else x :: y :: rest

/-- Sorts by a text of each element. Elements with the same text keep their order. -/
def sortBy {α : Type} (key : α → Text) : List α → List α
  | [] => []
  | x :: rest => insertBy key x (sortBy key rest)

end Cadence
