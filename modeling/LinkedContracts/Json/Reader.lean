import LinkedContracts.Json

/-! # Reading document text

    A reader takes characters off the front of a list and gives back the
    rest.  Values nest at most `maxDepth` deep; deeper text is refused, so
    that the depth also bounds the recursion.

    A number without a point and an exponent is an integer if it fits the
    64-bit range.  Any other number is scaled: its leading digits are taken
    as a 64-bit integer, rounded to floating point, and multiplied or
    divided by a power of ten that is itself rounded.  The result is the
    nearest value for up to fifteen digits and small exponents, and may be
    a neighbour of it beyond. -/

namespace LinkedContracts

namespace Json

/-- The nesting a text may have. -/
def maxDepth : Nat := 127

/-- Blanks between tokens. -/
def isBlank (c : Char) : Bool :=
  c == ' ' || c == '\n' || c == '\t' || c == '\r'

/-- Leave out leading blanks. -/
def skipBlanks (cs : List Char) : List Char := cs.dropWhile isBlank

/-! ## Numbers -/

/-- The value of a decimal digit. -/
def digit? (c : Char) : Option Nat :=
  if '0' ≤ c ∧ c ≤ '9' then some (c.toNat - '0'.toNat) else none

/-- Digits that have been read: a 64-bit significand, the power of ten it is
    to be scaled by, and whether further digits are beyond its range. -/
structure Digits where
  significand : Nat
  exponent : Int
  full : Bool

/-- One more digit before the point. -/
def Digits.whole (d : Digits) (n : Nat) : Digits :=
  if d.full then { d with exponent := d.exponent + 1 }
  else if Nat.pow 2 64 ≤ d.significand * 10 + n then
    { d with exponent := d.exponent + 1, full := true }
  else { d with significand := d.significand * 10 + n }

/-- One more digit after the point. -/
def Digits.fraction (d : Digits) (n : Nat) : Digits :=
  if d.full ∨ Nat.pow 2 64 ≤ d.significand * 10 + n then { d with full := true }
  else { d with
    significand := d.significand * 10 + n, exponent := d.exponent - 1 }

/-- `10 ^ n` rounded to floating point. -/
def power (n : Nat) : Binary64 := (Binary64.ofRatio (Nat.pow 10 n) 1).getD .largest

/-- Scale a magnitude by `10 ^ e`, in steps of at most `10 ^ 308`; `fuel`
    bounds the steps. -/
def scale : Nat → Binary64 → Int → Option Binary64
  | 0, _, _ => none
  | fuel + 1, x, e =>
      if e.natAbs ≤ 308 then
        if 0 ≤ e then x.mulMagnitude (power e.natAbs)
        else x.divMagnitude (power e.natAbs)
      else if x.rank = 0 then some x
      else if 0 ≤ e then none
      else (x.divMagnitude (power 308)).bind fun y => scale fuel y (e + 308)

/-- The number of a sign, digits and an exponent; `none` past the largest
    value. -/
def scaled (negative : Bool) (d : Digits) : Option Number :=
  (scale 8 (.ofInt d.significand) d.exponent).map fun x =>
    .double (if negative then x.neg else x)

/-- The number of a sign and digits without a point and an exponent. -/
def integral (negative : Bool) (d : Digits) : Option Number :=
  if d.full then scaled negative d
  else if negative then
    if d.significand = 0 ∨ Nat.pow 2 63 < d.significand then
      some (.double (Binary64.ofInt d.significand).neg)
    else some (.int (-(d.significand : Int)))
  else some (.int d.significand)

/-- The values of the leading digits of a text, and the rest. -/
def leadingDigits : List Char → List Nat × List Char
  | [] => ([], [])
  | c :: rest =>
      match digit? c with
      | some n => let (ns, r) := leadingDigits rest; (n :: ns, r)
      | none => ([], c :: rest)

/-- The value of a list of decimal digits. -/
def digitsValue (ns : List Nat) : Nat := ns.foldl (fun a n => a * 10 + n) 0

/-- The largest written exponent that is not read as infinite. -/
def maxExponent : Nat := Nat.pow 2 31 - 1

/-- Apply an exponent with its sign. -/
def withExponent (negative : Bool) (d : Digits) (down : Bool)
    (ns : List Nat) : Option Number :=
  let n := digitsValue ns
  if maxExponent < n then
    if d.significand ≠ 0 ∧ ¬ down then none
    else some (.double (if negative then Binary64.zero.neg else .zero))
  else
    scaled negative
      { d with exponent := d.exponent + if down then -(n : Int) else n }

/-- The exponent part, if there is one. -/
def readExponent (negative : Bool) (d : Digits) (plain : Option Number) :
    List Char → Option (Number × List Char)
  | c :: rest =>
      if c = 'e' ∨ c = 'E' then
        let (down, rest) := match rest with
          | '+' :: r => (false, r)
          | '-' :: r => (true, r)
          | r => (false, r)
        match leadingDigits rest with
        | ([], _) => none
        | (ns, r) => (withExponent negative d down ns).map (·, r)
      else plain.map (·, c :: rest)
  | [] => plain.map (·, [])

/-- The digits after a point, then the exponent part. -/
def readFraction (negative : Bool) (d : Digits) :
    List Char → Option (Number × List Char)
  | '.' :: rest =>
      match leadingDigits rest with
      | ([], _) => none
      | (ns, r) =>
          let e := { d with full := false }
          let f := ns.foldl Digits.fraction e
          readExponent negative f (scaled negative f) r
  | rest => readExponent negative d (integral negative d) rest

/-- A number after its sign. -/
def readMagnitude (negative : Bool) (cs : List Char) :
    Option (Number × List Char) :=
  match leadingDigits cs with
  | ([], _) => none
  | (0 :: _ :: _, _) => none
  | (ns, rest) => readFraction negative (ns.foldl Digits.whole ⟨0, 0, false⟩) rest

/-- A number. -/
def readNumber : List Char → Option (Number × List Char)
  | '-' :: rest => readMagnitude true rest
  | cs => readMagnitude false cs

/-! ## Strings -/

/-- The value of a hexadecimal digit. -/
def hex? (c : Char) : Option Nat :=
  if '0' ≤ c ∧ c ≤ '9' then some (c.toNat - '0'.toNat)
  else if 'a' ≤ c ∧ c ≤ 'f' then some (c.toNat - 'a'.toNat + 10)
  else if 'A' ≤ c ∧ c ≤ 'F' then some (c.toNat - 'A'.toNat + 10)
  else none

/-- The code unit of four hexadecimal digits. -/
def codeUnit? (a b c d : Char) : Option Nat := do
  let a ← hex? a
  let b ← hex? b
  let c ← hex? c
  let d ← hex? d
  return ((a * 16 + b) * 16 + c) * 16 + d

/-- The character a short escape stands for. -/
def unescape? : Char → Option Char
  | '"' => some '"'
  | '\\' => some '\\'
  | '/' => some '/'
  | 'b' => some (Char.ofNat 8)
  | 'f' => some (Char.ofNat 12)
  | 'n' => some '\n'
  | 'r' => some '\r'
  | 't' => some '\t'
  | _ => none

/-- The rest of a string after its opening quote.  `high` is the first half
    of a surrogate pair that waits for the second one. -/
def readString (high : Option Nat) (done : List Char) :
    List Char → Option (String × List Char)
  | '\\' :: 'u' :: a :: b :: c :: d :: rest =>
      match codeUnit? a b c d, high with
      | none, _ => none
      | some u, none =>
          if 0xD800 ≤ u ∧ u < 0xDC00 then readString (some u) done rest
          else if 0xDC00 ≤ u ∧ u < 0xE000 then none
          else readString none (Char.ofNat u :: done) rest
      | some u, some h =>
          if 0xDC00 ≤ u ∧ u < 0xE000 then
            readString none
              (Char.ofNat (0x10000 + (h - 0xD800) * 0x400 + (u - 0xDC00)) :: done)
              rest
          else none
  | '\\' :: c :: rest =>
      match unescape? c, high with
      | some u, none => readString none (u :: done) rest
      | _, _ => none
  | '"' :: rest =>
      if high.isSome then none else some (String.ofList done.reverse, rest)
  | c :: rest =>
      if high.isSome ∨ c = '\\' ∨ c.val < 32 then none
      else readString none (c :: done) rest
  | [] => none

/-! ## Values -/

/-- Take a given text off the front. -/
def expect : List Char → List Char → Option (List Char)
  | [], cs => some cs
  | w :: ws, c :: cs => if w = c then expect ws cs else none
  | _ :: _, [] => none

/-- Items up to the closing bracket, after an item; `fuel` bounds their
    number. -/
def readItems (item : List Char → Option (Json × List Char)) :
    Nat → List Char → Option (List Json × List Char)
  | 0, _ => none
  | fuel + 1, cs => do
      let (x, rest) ← item cs
      match skipBlanks rest with
      | ',' :: r =>
          let (xs, r) ← readItems item fuel r
          return (x :: xs, r)
      | ']' :: r => return ([x], r)
      | _ => none

/-- Fields up to the closing brace. -/
def readFields (item : List Char → Option (Json × List Char)) :
    Nat → List Char → Option (List (String × Json) × List Char)
  | 0, _ => none
  | fuel + 1, cs =>
      match skipBlanks cs with
      | '"' :: rest => do
          let (key, rest) ← readString none [] rest
          match skipBlanks rest with
          | ':' :: rest =>
              let (x, rest) ← item rest
              match skipBlanks rest with
              | ',' :: r =>
                  let (xs, r) ← readFields item fuel r
                  return ((key, x) :: xs, r)
              | '\x7d' :: r => return ([(key, x)], r)
              | _ => none
          | _ => none
      | _ => none

/-- A value that nests at most `depth` deep. -/
def readValue : Nat → List Char → Option (Json × List Char)
  | depth, cs =>
      match skipBlanks cs with
      | 'n' :: r => (expect ['u', 'l', 'l'] r).map (.null, ·)
      | 't' :: r => (expect ['r', 'u', 'e'] r).map (.bool true, ·)
      | 'f' :: r => (expect ['a', 'l', 's', 'e'] r).map (.bool false, ·)
      | '"' :: r => (readString none [] r).map fun (s, r) => (.string s, r)
      | '[' :: r =>
          match depth with
          | 0 => none
          | d + 1 =>
              match skipBlanks r with
              | ']' :: r => some (.array [], r)
              | r =>
                  (readItems (readValue d) r.length r).map
                    fun (xs, r) => (.array xs, r)
      | '\x7b' :: r =>
          match depth with
          | 0 => none
          | d + 1 =>
              match skipBlanks r with
              | '\x7d' :: r => some (.object [], r)
              | r =>
                  (readFields (readValue d) r.length r).map
                    fun (xs, r) => (.object (Dict.ofList xs), r)
      | r => (readNumber r).map fun (n, r) => (.number n, r)

/-- The document a text holds, with nothing but blanks around it. -/
def parse? (text : String) : Option Json :=
  match readValue maxDepth text.toList with
  | some (j, rest) => if skipBlanks rest = [] then some j else none
  | none => none

end Json

end LinkedContracts
