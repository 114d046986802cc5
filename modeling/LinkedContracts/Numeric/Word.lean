/-! # Decimal words

    Natural numbers of the 64-bit range in decimal digits.  A leading plus
    and leading zeros are allowed. -/

namespace LinkedContracts

/-- The value of decimal digits. -/
def decimalValue (ds : List Char) : Nat :=
  ds.foldl (fun n c => n * 10 + (c.toNat - '0'.toNat)) 0

/-- The number a text spells, below `2 ^ 64`. -/
def word? (cs : List Char) : Option Nat :=
  let ds := match cs with
    | '+' :: rest => rest
    | rest => rest
  if ds.isEmpty ∨ ¬ ds.all Char.isDigit then none
  else if decimalValue ds < Nat.pow 2 64 then some (decimalValue ds)
  else none

end LinkedContracts
