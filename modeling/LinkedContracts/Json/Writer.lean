import LinkedContracts.Json
import LinkedContracts.Numeric.Shortest

/-! # Document text

    A document is written without spaces, the keys of an object in
    ascending order.  A quote, a backslash and the control characters are
    escaped in strings; every other character stands for itself. -/

namespace LinkedContracts

/-- A hexadecimal digit in lower case. -/
def hexDigit (n : Nat) : Char := Nat.digitChar n

namespace Json

/-- A character inside a string. -/
def escape (c : Char) : List Char :=
  if c = '"' then ['\\', '"']
  else if c = '\\' then ['\\', '\\']
  else if c = '\n' then ['\\', 'n']
  else if c = '\r' then ['\\', 'r']
  else if c = '\t' then ['\\', 't']
  else if c.val = 8 then ['\\', 'b']
  else if c.val = 12 then ['\\', 'f']
  else if c.val < 32 then
    ['\\', 'u', '0', '0', hexDigit (c.toNat / 16), hexDigit (c.toNat % 16)]
  else [c]

/-- A string with its quotes. -/
def quoted (s : String) : List Char :=
  '"' :: (s.toList.flatMap escape ++ ['"'])

/-- An integer in decimal digits. -/
def intText (i : Int) : List Char :=
  if i < 0 then '-' :: Nat.toDigits 10 i.natAbs else Nat.toDigits 10 i.natAbs

/-- A number: digits for an integer, the shortest text for a floating-point
    value. -/
def numberText : Number → List Char
  | .int i => intText i
  | .double x => x.text

mutual

/-- The text of a document. -/
def chars : Json → List Char
  | .null => ['n', 'u', 'l', 'l']
  | .bool true => ['t', 'r', 'u', 'e']
  | .bool false => ['f', 'a', 'l', 's', 'e']
  | .number n => numberText n
  | .string s => quoted s
  | .array [] => ['[', ']']
  | .array (x :: xs) => '[' :: (chars x ++ moreItems xs)
  | .object [] => ['\x7b', '\x7d']
  | .object ((k, v) :: rest) =>
      '\x7b' :: (quoted k ++ ':' :: (chars v ++ moreFields rest))

/-- The items after the first one, and the closing bracket. -/
def moreItems : List Json → List Char
  | [] => [']']
  | x :: xs => ',' :: (chars x ++ moreItems xs)

/-- The fields after the first one, and the closing brace. -/
def moreFields : List (String × Json) → List Char
  | [] => ['\x7d']
  | (k, v) :: rest =>
      ',' :: (quoted k ++ ':' :: (chars v ++ moreFields rest))

end

/-- The text of a document. -/
def render (j : Json) : String := String.ofList j.chars

end Json

end LinkedContracts
