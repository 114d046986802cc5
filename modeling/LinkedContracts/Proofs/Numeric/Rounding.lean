import LinkedContracts.Numeric.Binary64
import Mathlib.Algebra.Order.Group.Nat
import Mathlib.Data.Nat.Log
import Mathlib.Tactic.Ring

/-! # Integers as floating-point values

    A floating-point value has 53 binary digits.  An integer with no more of
    them is kept as it is, a longer one is rounded, and two integers become one
    value exactly if they are rounded to one integer. -/

namespace LinkedContracts

namespace Binary64

/-! ## Rounded quotients -/

section DivRound

variable {num den : Nat}

/-- A ratio is rounded as in any other terms. -/
theorem divRound_mul_right {c : Nat} (hc : 0 < c) :
    divRound (num * c) (den * c) = divRound num den := by
  have hbelow : 2 * (num % den * c) < den * c ↔ 2 * (num % den) < den := by
    rw [← Nat.mul_assoc, Nat.mul_lt_mul_right hc]
  have habove : den * c < 2 * (num % den * c) ↔ den < 2 * (num % den) := by
    rw [← Nat.mul_assoc, Nat.mul_lt_mul_right hc]
  simp only [divRound, Nat.mul_div_mul_right num den hc, Nat.mul_mod_mul_right, hbelow,
    habove]

theorem divRound_zero (den : Nat) : divRound 0 den = 0 := by
  simp [divRound]

/-- A whole quotient stays as it is. -/
theorem divRound_mul_self (n : Nat) (hden : 0 < den) : divRound (n * den) den = n := by
  rw [divRound, Nat.mul_div_cancel n hden, Nat.mul_mod_left]
  exact if_pos hden

theorem div_le_divRound : num / den ≤ divRound num den := by
  rw [divRound]
  split_ifs <;> omega

theorem divRound_le_div_add_one : divRound num den ≤ num / den + 1 := by
  rw [divRound]
  split_ifs <;> omega

end DivRound

/-! ## Rounding to 53 digits -/

/-- How far integers of 53 binary digits lie apart where `n` is. -/
def spacing (n : Nat) : Nat := 2 ^ (n.log2 - 52)

/-- A natural number rounded to 53 binary digits, a half to the even one. -/
def rounded (n : Nat) : Nat := divRound n (spacing n) * spacing n

/-- The first 53 binary digits of a number, the last one rounded. -/
def leading (n : Nat) : Nat := divRound (n * 2 ^ 52) (2 ^ n.log2)

theorem rounded_of_log2_le {n : Nat} (h : n.log2 ≤ 52) : rounded n = n := by
  have hspacing : spacing n = 1 := by
    rw [spacing, Nat.sub_eq_zero_of_le h, pow_zero]
  have hwhole := divRound_mul_self n Nat.one_pos
  rw [rounded, hspacing, Nat.mul_one]
  rwa [Nat.mul_one] at hwhole

/-- The digits of a number are those of the rounded one. -/
theorem leading_mul (n : Nat) : leading n * 2 ^ n.log2 = rounded n * 2 ^ 52 := by
  have hpos (k : Nat) : 0 < 2 ^ k := Nat.two_pow_pos k
  rcases Nat.le_total n.log2 52 with hshort | hlong
  · have hpower : (2 : Nat) ^ 52 = 2 ^ (52 - n.log2) * 2 ^ n.log2 := by
      rw [← pow_add, Nat.sub_add_cancel hshort]
    rw [rounded_of_log2_le hshort, leading, hpower, ← Nat.mul_assoc,
      divRound_mul_self _ (hpos _)]
  · have hpower : (2 : Nat) ^ n.log2 = spacing n * 2 ^ 52 := by
      rw [spacing, ← pow_add, Nat.sub_add_cancel hlong]
    rw [leading, hpower, divRound_mul_right (hpos 52), rounded, Nat.mul_assoc]

theorem le_leading {n : Nat} (hn : n ≠ 0) : 2 ^ 52 ≤ leading n := by
  refine Nat.le_trans ?_ div_le_divRound
  rw [Nat.le_div_iff_mul_le (Nat.two_pow_pos _), Nat.mul_comm]
  exact Nat.mul_le_mul_right _ (Nat.log2_self_le hn)

theorem leading_le (n : Nat) : leading n ≤ 2 ^ 53 := by
  have hlt : n * 2 ^ 52 / 2 ^ n.log2 < 2 ^ 53 := by
    rw [Nat.div_lt_iff_lt_mul (Nat.two_pow_pos _)]
    calc n * 2 ^ 52 < 2 ^ (n.log2 + 1) * 2 ^ 52 :=
          Nat.mul_lt_mul_of_pos_right Nat.lt_log2_self (Nat.two_pow_pos 52)
      _ = 2 ^ 53 * 2 ^ n.log2 := by ring
  exact Nat.le_trans divRound_le_div_add_one hlt

/-! ## The place of an integer among the values -/

theorem log2_add_le {n : Nat} (hn : n ≠ 0) (e : Nat) :
    1 * Nat.pow 2 (n.log2 + e) ≤ n * Nat.pow 2 e := by
  rw [Nat.one_mul, Nat.pow_eq, Nat.pow_eq, Nat.pow_add]
  exact Nat.mul_le_mul_right _ (Nat.log2_self_le hn)

theorem shiftedLog_one {n : Nat} (hn : n ≠ 0) : shiftedLog n 1 = n.log2 + 1074 := by
  rw [shiftedLog]
  -- so with any other power of two
  generalize 1074 = e
  have hguess : n.log2 + e - Nat.log2 1 = n.log2 + e := by
    rw [show Nat.log2 1 = 0 from rfl, Nat.sub_zero]
  rw [hguess, if_neg hn, if_neg (Nat.not_lt.mpr (log2_add_le hn e))]

/-- The rank of an integer: as many values as its number of digits tells, and
    its digits. -/
theorem nearestRank_one {n : Nat} (hn : n ≠ 0) :
    nearestRank n 1 = (n.log2 + 1022) * 2 ^ 52 + leading n := by
  rw [nearestRank, shiftedLog_one hn, show 1074 = 52 + 1022 from rfl]
  generalize 1022 = e
  have hexponent : n.log2 + (52 + e) - 52 = n.log2 + e := by omega
  have hnum : n * Nat.pow 2 (52 + e) = n * 2 ^ 52 * 2 ^ e := by
    rw [Nat.pow_eq, Nat.mul_assoc, ← Nat.pow_add]
  have hden : 1 * Nat.pow 2 (n.log2 + e) = 2 ^ n.log2 * 2 ^ e := by
    rw [Nat.pow_eq, Nat.one_mul, ← Nat.pow_add]
  rw [hexponent, hnum, hden, divRound_mul_right (Nat.two_pow_pos e), leading, Nat.pow_eq]

/-- Numbers of 53 digits, the last of which may carry, have one place if they are
    one number: where their exponents differ, one of them has carried. -/
theorem place_eq_iff {e f m k : Nat} (hm : 2 ^ 52 ≤ m) (hm' : m ≤ 2 ^ 53)
    (hk : 2 ^ 52 ≤ k) (hk' : k ≤ 2 ^ 53) :
    e * 2 ^ 52 + m = f * 2 ^ 52 + k ↔ m * 2 ^ e = k * 2 ^ f := by
  wlog hle : e ≤ f generalizing e f m k
  · rw [eq_comm, this hk hk' hm hm' (Nat.le_of_not_le hle), eq_comm]
  obtain ⟨d, rfl⟩ := Nat.exists_eq_add_of_le hle
  have hnumber : m * 2 ^ e = k * 2 ^ (e + d) ↔ m = k * 2 ^ d := by
    rw [show k * 2 ^ (e + d) = k * 2 ^ d * 2 ^ e by ring]
    exact Nat.mul_left_inj (Nat.two_pow_pos e).ne'
  rw [hnumber]
  match d with
  | 0 => omega
  | 1 => omega
  | d + 2 =>
      -- too far apart for either
      have hfar : k * 4 ≤ k * 2 ^ (d + 2) :=
        Nat.mul_le_mul_left k (Nat.pow_le_pow_right Nat.two_pos (Nat.le_add_left 2 d))
      generalize k * 2 ^ (d + 2) = far at hfar
      constructor <;> omega

theorem rounded_eq_zero_iff {n : Nat} : rounded n = 0 ↔ n = 0 := by
  constructor
  · intro h
    by_contra hn
    have hmul := leading_mul n
    rw [h, Nat.zero_mul, Nat.mul_eq_zero] at hmul
    have hleading := le_leading hn
    have hpower := Nat.two_pow_pos n.log2
    omega
  · rintro rfl
    rfl

theorem nearestRank_one_eq_zero_iff {n : Nat} : nearestRank n 1 = 0 ↔ n = 0 := by
  constructor
  · intro h
    by_contra hn
    rw [nearestRank_one hn] at h
    omega
  · rintro rfl
    have hlog : shiftedLog 0 1 = 0 := by
      rw [shiftedLog]
      exact if_pos rfl
    simp only [nearestRank, hlog, Nat.zero_sub, Nat.zero_mul, Nat.zero_add, divRound_zero]

/-- Numbers have one rank if they are rounded to one number. -/
theorem nearestRank_one_eq_iff (m n : Nat) :
    nearestRank m 1 = nearestRank n 1 ↔ rounded m = rounded n := by
  rcases eq_or_ne m 0 with rfl | hm
  · rw [nearestRank_one_eq_zero_iff.mpr rfl, rounded_eq_zero_iff.mpr rfl, eq_comm,
      nearestRank_one_eq_zero_iff, eq_comm (a := 0), rounded_eq_zero_iff]
  rcases eq_or_ne n 0 with rfl | hn
  · rw [nearestRank_one_eq_zero_iff.mpr rfl, rounded_eq_zero_iff.mpr rfl,
      nearestRank_one_eq_zero_iff, rounded_eq_zero_iff]
  have hplace := place_eq_iff (e := m.log2) (f := n.log2) (le_leading hm)
    (leading_le m) (le_leading hn) (leading_le n)
  rw [leading_mul m, leading_mul n, Nat.mul_left_inj (Nat.two_pow_pos 52).ne'] at hplace
  rw [nearestRank_one hm, nearestRank_one hn, ← hplace, Nat.add_mul, Nat.add_mul,
    Nat.add_right_comm, Nat.add_right_comm _ _ (leading n), Nat.add_left_inj]

/-- Integers of 64 bits are below the largest value. -/
theorem nearestRank_one_lt {n : Nat} (hn : n < 2 ^ 64) :
    nearestRank n 1 < 2047 * Nat.pow 2 52 := by
  rcases eq_or_ne n 0 with rfl | hne
  · rw [nearestRank_one_eq_zero_iff.mpr rfl]
    decide
  · have hlog : n.log2 < 64 := (Nat.log2_lt hne).mpr hn
    have hleading := leading_le n
    rw [nearestRank_one hne, Nat.pow_eq]
    omega

/-! ## Signs -/

/-- A number with the sign of an integer, made of its magnitude. -/
def signed (f : Nat → Nat) (i : Int) : Int := i.sign * f i.natAbs

/-- Such numbers are equal if their signs and magnitudes are. -/
theorem signed_eq_iff {f : Nat → Nat} (hf : ∀ n, f n = 0 ↔ n = 0) {i j : Int} :
    signed f i = signed f j ↔ i.sign = j.sign ∧ f i.natAbs = f j.natAbs := by
  have parts (i : Int) : (signed f i).sign = i.sign
      ∧ (signed f i).natAbs = f i.natAbs := by
    rcases eq_or_ne i 0 with rfl | hi
    · simp [signed, (hf 0).mpr rfl]
    · have hmagnitude : f i.natAbs ≠ 0 := by simpa [hf] using hi
      simp [signed, Int.sign_mul, Int.natAbs_mul, Int.natAbs_sign_of_ne_zero hi,
        Int.sign_natCast_of_ne_zero hmagnitude]
  constructor
  · intro h
    rw [← (parts i).1, ← (parts i).2, ← (parts j).1, ← (parts j).2, h]
    exact ⟨rfl, rfl⟩
  · rintro ⟨hsign, hmagnitude⟩
    rw [signed, signed, hsign, hmagnitude]

/-- An integer rounded to 53 binary digits. -/
def roundedInt (i : Int) : Int := signed rounded i

/-- The place of an integer on the number line. -/
theorem position_ofInt {i : Int} (hi : i.natAbs < 2 ^ 64) :
    (ofInt i).position = signed (nearestRank · 1) i := by
  have hmagnitude : ofRatio i.natAbs 1
      = some ⟨false, nearestRank i.natAbs 1, nearestRank_one_lt hi⟩ :=
    dif_pos (nearestRank_one_lt hi)
  rw [ofInt, hmagnitude, signed]
  rcases lt_trichotomy i 0 with hneg | rfl | hpos
  · rw [if_pos hneg, Int.sign_eq_neg_one_of_neg hneg]
    simp [position, neg]
  · have hzero : nearestRank (0 : Int).natAbs 1 = 0 := nearestRank_one_eq_zero_iff.mpr rfl
    rw [if_neg (lt_irrefl 0), Int.sign_zero, Int.zero_mul]
    show (nearestRank (0 : Int).natAbs 1 : Int) = 0
    rw [hzero]
    rfl
  · rw [if_neg hpos.not_gt, Int.sign_eq_one_of_pos hpos]
    simp [position]

/-- Integers of 64 bits are equal as floating-point values if they are rounded
    to one integer. -/
theorem eq_ofInt_iff {i j : Int} (hi : i.natAbs < 2 ^ 64) (hj : j.natAbs < 2 ^ 64) :
    eq (ofInt i) (ofInt j) = true ↔ roundedInt i = roundedInt j := by
  rw [eq, beq_iff_eq, position_ofInt hi, position_ofInt hj, roundedInt, roundedInt,
    signed_eq_iff fun _ => nearestRank_one_eq_zero_iff,
    signed_eq_iff fun _ => rounded_eq_zero_iff, nearestRank_one_eq_iff]

/-- The integers up to `2 ^ 53` are floating-point values. -/
theorem roundedInt_of_le {i : Int} (hi : i.natAbs ≤ 2 ^ 53) : roundedInt i = i := by
  have hrounded : rounded i.natAbs = i.natAbs := by
    rcases Nat.lt_or_eq_of_le hi with hlt | heq
    · rcases eq_or_ne i.natAbs 0 with hzero | hne
      · rw [hzero, rounded_eq_zero_iff]
      · exact rounded_of_log2_le (Nat.le_of_lt_succ ((Nat.log2_lt hne).mpr hlt))
    · rw [heq]
      decide
  rw [roundedInt, signed, hrounded, Int.sign_mul_natAbs]

-- The first integer that is none.
example : roundedInt (2 ^ 53 + 1) = 2 ^ 53 := by decide

end Binary64

end LinkedContracts
