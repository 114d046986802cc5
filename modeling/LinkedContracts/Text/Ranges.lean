/-! # Sets of characters

    A set of characters is a list of ranges of code points in ascending
    order.  Tables of the Unicode character database are written as text,
    each range in hexadecimal, `41-5A` for a range and `AA` for a single
    character. -/

namespace LinkedContracts

/-- Ranges of code points, both ends included, in ascending order. -/
abbrev Ranges := List (Nat × Nat)

namespace Ranges

/-- Whether a code point is in one of the ranges. -/
def mem : Ranges → Nat → Bool
  | [], _ => false
  | (first, last) :: rest, c =>
      if c < first then false else if c ≤ last then true else mem rest c

/-- The value of an upper-case hexadecimal digit. -/
def hexValue (c : Char) : Nat :=
  if c ≤ '9' then c.toNat - '0'.toNat else c.toNat - 'A'.toNat + 10

/-- Read ranges: `first` is set after a dash, `value` is the number under
    way. -/
def ofChars (first : Option Nat) (value : Nat) : List Char → Ranges
  | [] => [(first.getD value, value)]
  | c :: rest =>
      if c = ' ' then (first.getD value, value) :: ofChars none 0 rest
      else if c = '-' then ofChars (some value) 0 rest
      else ofChars first (value * 16 + hexValue c) rest

/-- The ranges a table text lists. -/
def ofText (text : String) : Ranges := ofChars none 0 text.toList

/-- The ranges a table of several lines lists. -/
def ofLines (lines : List String) : Ranges := lines.flatMap ofText

end Ranges

end LinkedContracts
