import LinkedContracts.Numeric.Binary64

/-! # Shortest decimal text

    The fewest decimal digits that read back as a given floating-point
    value, and of those the nearest.

    A value owns the interval of reals that round to it.  For one digit,
    two digits, and so on, the two neighbours of the value on the decimal
    grid of that many digits are tested; the first grid with a neighbour
    in the interval wins. -/

namespace LinkedContracts

/-- A positive decimal `digits * 10 ^ exponent`. -/
structure Decimal where
  digits : Nat
  exponent : Int
deriving DecidableEq, Inhabited

namespace Decimal

/-- Drop trailing zeros; `fuel` bounds their number. -/
def trimZeros : Nat → Decimal → Decimal
  | 0, d => d
  | fuel + 1, d =>
      if d.digits % 10 = 0 ∧ d.digits ≠ 0 then
        trimZeros fuel ⟨d.digits / 10, d.exponent + 1⟩
      else d

/-- The exponent of the leading digit. -/
def leading (d : Decimal) : Int :=
  d.exponent + ((Nat.toDigits 10 d.digits).length : Int) - 1

end Decimal

namespace Binary64

/-- The interval of reals that round to a magnitude, in quarters of the
    spacing above it: lower end, value, upper end, whether the ends belong
    to it. -/
def interval (r : Nat) : Nat × Nat × Nat × Bool :=
  let (m, e) := significand r
  let below := if m = Nat.pow 2 52 ∧ 0 < e then 1 else 2
  (4 * m - below, 4 * m, 4 * m + 2, m % 2 == 0)

/-- The quarter of the spacing as a ratio. -/
def quarter (r : Nat) : Nat × Nat :=
  let (_, e) := significand r
  if e < 1076 then (1, Nat.pow 2 (1076 - e)) else (Nat.pow 2 (e - 1076), 1)

/-- `10 ^ e` as a ratio. -/
def tenPower (e : Int) : Nat × Nat :=
  if 0 ≤ e then (Nat.pow 10 e.toNat, 1) else (1, Nat.pow 10 (-e).toNat)

/-- The decimal exponent of the leading digit of `num / den`. -/
def decimalLog (num den : Nat) : Int :=
  let guess : Int :=
    ((Nat.toDigits 10 num).length : Int) - (Nat.toDigits 10 den).length
  let (p, q) := tenPower guess
  if num * q < den * p then guess - 1 else guess

/-- The neighbours of the magnitude of rank `r` on the grid of multiples of
    `10 ^ e` that lie in its interval, the nearer one, of two equally near
    the even one. -/
def onGrid (r : Nat) (e : Int) : Option Decimal :=
  let (lo, v, hi, closed) := interval r
  let (u, w) := quarter r
  let (p, q) := tenPower e
  -- in units where a quarter is `a` and a grid step is `b`
  let a := u * q
  let b := p * w
  let n := v * a / b
  let inside (k : Nat) : Bool :=
    let x := k * b
    if closed then lo * a ≤ x && x ≤ hi * a else lo * a < x && x < hi * a
  let below := v * a - n * b
  let above := (n + 1) * b - v * a
  match n != 0 && inside n, inside (n + 1) with
  | true, true =>
      if below < above then some ⟨n, e⟩
      else if above < below then some ⟨n + 1, e⟩
      else if n % 2 = 0 then some ⟨n, e⟩ else some ⟨n + 1, e⟩
  | true, false => some ⟨n, e⟩
  | false, true => some ⟨n + 1, e⟩
  | false, false => none

/-- The shortest decimal that reads back as the magnitude of a nonzero
    value. -/
def shortest (x : Binary64) : Decimal :=
  let (num, den) := x.ratio
  let top := decimalLog num den
  let hit := (List.range 18).findSome? fun n : Nat => onGrid x.rank (top - n)
  Decimal.trimZeros 20 (hit.getD ⟨num / den, 0⟩)

/-- Decimal digits as text. -/
def digitText (n : Nat) : List Char := Nat.toDigits 10 n

/-- `digits * 10 ^ exponent` without an exponent; `whole` is written after
    a whole number. -/
def positional (d : Decimal) (whole : List Char) : List Char :=
  let ds := digitText d.digits
  if 0 ≤ d.exponent then ds ++ List.replicate d.exponent.toNat '0' ++ whole
  else
    let places := (-d.exponent).toNat
    if places < ds.length then
      ds.take (ds.length - places) ++ '.' :: ds.drop (ds.length - places)
    else
      '0' :: '.' :: (List.replicate (places - ds.length) '0' ++ ds)

/-- `d.ddd` times a power of ten, the sign of the exponent always
    written. -/
def scientific (d : Decimal) : List Char :=
  let mantissa := match digitText d.digits with
    | [] => []
    | [c] => [c]
    | c :: rest => c :: '.' :: rest
  let e := d.leading
  mantissa ++ 'e' :: (if e < 0 then '-' else '+') :: digitText e.natAbs

/-- Text in documents: the shortest digits, positional for a leading digit
    from `10 ^ -5` to `10 ^ 15`, and a whole number ends in `.0`. -/
def text (x : Binary64) : List Char :=
  let body :=
    if x.rank = 0 then ['0', '.', '0']
    else
      let d := x.shortest
      if -5 ≤ d.leading ∧ d.leading < 16 then positional d ['.', '0']
      else scientific d
  if x.negative then '-' :: body else body

/-- Text of a bound in messages: the shortest digits, always positional, a
    whole number without a point. -/
def boundText (x : Binary64) : List Char :=
  let body := if x.rank = 0 then ['0'] else positional x.shortest []
  if x.negative then '-' :: body else body

end Binary64

end LinkedContracts
