/-! # Binary floating point

    A finite 64-bit binary floating-point value, held exactly: its sign and
    its rank, the number of representable values between it and zero.
    Ranks ascend with the magnitude, so comparing two values is comparing
    two integers.

    `ofRatio` rounds a ratio of natural numbers to the nearest value, ties
    to the even one.  Products and quotients are rounded the same way. -/

namespace LinkedContracts

/-- A finite 64-bit binary floating-point value. -/
structure Binary64 where
  /-- The sign; zero has both. -/
  negative : Bool
  /-- How many values of this sign lie below it, counting from zero. -/
  rank : Nat
  rank_lt : rank < 2047 * Nat.pow 2 52
deriving DecidableEq

namespace Binary64

/-- Zero. -/
def zero : Binary64 := ⟨false, 0, by decide⟩

/-- The largest value. -/
def largest : Binary64 := ⟨false, 2047 * Nat.pow 2 52 - 1, by decide⟩

instance : Inhabited Binary64 := ⟨zero⟩

/-- The value with the opposite sign. -/
def neg (x : Binary64) : Binary64 := { x with negative := !x.negative }

/-- The magnitude of rank `r` is `(significand r).1 * 2 ^ (significand r).2`;
    the exponent is counted from `-1074`. -/
def significand (r : Nat) : Nat × Nat :=
  if r < Nat.pow 2 53 then (r, 0)
  else (r - (r / Nat.pow 2 52 - 1) * Nat.pow 2 52, r / Nat.pow 2 52 - 1)

/-- The magnitude as a ratio of natural numbers. -/
def ratio (x : Binary64) : Nat × Nat :=
  let (m, e) := significand x.rank
  if e < 1074 then (m, Nat.pow 2 (1074 - e)) else (m * Nat.pow 2 (e - 1074), 1)

/-- `num / den` to the nearest natural number, a half to the even one. -/
def divRound (num den : Nat) : Nat :=
  let q := num / den
  let twice := 2 * (num % den)
  if twice < den then q
  else if den < twice then q + 1
  else if q % 2 = 0 then q else q + 1

/-- The binary logarithm of `num / den`, rounded down, plus `1074`; zero
    below `2 ^ -1074`. -/
def shiftedLog (num den : Nat) : Nat :=
  let guess := num.log2 + 1074 - den.log2
  if num = 0 then 0
  else if num * Nat.pow 2 1074 < den * Nat.pow 2 guess then guess - 1
  else guess

/-- The rank of the value nearest to `num / den`; it may lie past the
    largest value. -/
def nearestRank (num den : Nat) : Nat :=
  let e := shiftedLog num den - 52
  e * Nat.pow 2 52 + divRound (num * Nat.pow 2 1074) (den * Nat.pow 2 e)

/-- The value nearest to `num / den`, unless it is past the largest one. -/
def ofRatio (num den : Nat) : Option Binary64 :=
  if h : nearestRank num den < 2047 * Nat.pow 2 52 then
    some ⟨false, nearestRank num den, h⟩
  else none

/-- The value nearest to an integer. -/
def ofInt (i : Int) : Binary64 :=
  let magnitude := (ofRatio i.natAbs 1).getD largest
  if i < 0 then magnitude.neg else magnitude

/-- The rounded product of two magnitudes. -/
def mulMagnitude (x y : Binary64) : Option Binary64 :=
  ofRatio (x.ratio.1 * y.ratio.1) (x.ratio.2 * y.ratio.2)

/-- The rounded quotient of two magnitudes. -/
def divMagnitude (x y : Binary64) : Option Binary64 :=
  ofRatio (x.ratio.1 * y.ratio.2) (x.ratio.2 * y.ratio.1)

/-- Position on the number line; both zeros are at zero. -/
def position (x : Binary64) : Int :=
  if x.negative then -(x.rank : Int) else x.rank

/-- Comparison by value. -/
def cmp (x y : Binary64) : Ordering := compare x.position y.position

/-- Equality by value: both zeros are equal. -/
def eq (x y : Binary64) : Bool := x.position == y.position

/-- Whether the value is a whole number. -/
def isWhole (x : Binary64) : Bool := x.ratio.1 % x.ratio.2 == 0

theorem cmp_eq_iff (x y : Binary64) : cmp x y = .eq ↔ eq x y = true := by
  simp [cmp, eq, Std.LawfulEqCmp.compare_eq_iff_eq]

end Binary64

end LinkedContracts
