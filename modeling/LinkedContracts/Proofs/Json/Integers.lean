import LinkedContracts.Proofs.Json.Numbers

/-! # Integers read back

    An integer of 64 bits, with or without a sign, is read back from its
    digits.  Whatever integer is read from the text of a number is one. -/

namespace LinkedContracts

/-- Whether a number can be held: integers have 64 bits, with or without a
    sign. -/
def Number.InRange : Number → Prop
  | .int i => -9223372036854775808 ≤ i ∧ i < 18446744073709551616
  | .double _ => True

namespace Json

/-! ## Digits -/

theorem digitsValue_digitValues (ds : List Char) :
    digitsValue (digitValues ds) = Nat.ofDigitChars 10 ds 0 := by
  simp only [digitsValue, digitValues, List.foldl_map, Nat.ofDigitChars_eq_foldl,
    Nat.mul_comm 10]

/-- The first digit of a number is no zero, unless it is the only one. -/
theorem head_toDigits {n : Nat} (hn : 0 < n) :
    ∃ c cs, Nat.toDigits 10 n = c :: cs ∧ c.toNat - '0'.toNat ≠ 0 := by
  induction n using Nat.strongRecOn with
  | ind n ih =>
      rcases Nat.lt_or_ge n 10 with hlt | hge
      · refine ⟨Nat.digitChar n, [], Nat.toDigits_of_lt_base hlt, ?_⟩
        rw [Nat.toNat_digitChar_of_lt_ten hlt]
        show 48 + n - 48 ≠ 0
        omega
      · obtain ⟨c, cs, hcs, hc⟩ := ih (n / 10) (by omega) (by omega)
        refine ⟨c, cs ++ [Nat.digitChar (n % 10)], ?_, hc⟩
        rw [Nat.toDigits_of_base_le (by decide) hge, hcs, List.cons_append]

/-- Digits are summed up, as long as the sum has 64 bits. -/
theorem foldl_whole {ns : List Nat} {a : Nat} (e : Int)
    (h : ns.foldl (fun a n => a * 10 + n) a < Nat.pow 2 64) :
    ns.foldl Digits.whole ⟨a, e, false⟩
      = ⟨ns.foldl (fun a n => a * 10 + n) a, e, false⟩ := by
  induction ns generalizing a with
  | nil => rfl
  | cons n ns ih =>
      -- what has 64 bits in the end has no more at any digit
      have hgrows (b : Nat) : b ≤ ns.foldl (fun a n => a * 10 + n) b := by
        clear ih h
        induction ns generalizing b with
        | nil => exact Nat.le_refl b
        | cons m ns ih => exact Nat.le_trans (by omega) (ih (b * 10 + m))
      have hfits : ¬Nat.pow 2 64 ≤ a * 10 + n :=
        Nat.not_le.mpr (Nat.lt_of_le_of_lt (hgrows _) h)
      rw [List.foldl_cons, Digits.whole]
      simp only [Bool.false_eq_true, if_false, if_neg hfits]
      exact ih h

/-- The digits of a number of 64 bits are read as an integer. -/
theorem readMagnitude_toDigits {n : Nat} (hn : n < Nat.pow 2 64) (negative : Bool) :
    readMagnitude negative (Nat.toDigits 10 n)
      = (integral negative ⟨n, 0, false⟩).map (·, []) := by
  obtain ⟨-, hdigits⟩ := isDigits_toDigits n
  have hread : leadingDigits (Nat.toDigits 10 n)
      = (digitValues (Nat.toDigits 10 n), []) := by
    have hend : NoDigit [] := nofun
    have h := leadingDigits_append hdigits hend
    rwa [List.append_nil] at h
  have hvalue : digitsValue (digitValues (Nat.toDigits 10 n)) = n := by
    rw [digitsValue_digitValues, Nat.ofDigitChars_ten_toDigits]
  have hsum : (digitValues (Nat.toDigits 10 n)).foldl Digits.whole ⟨0, 0, false⟩
      = ⟨n, 0, false⟩ := by
    rw [digitsValue] at hvalue
    rw [foldl_whole 0 (by rw [hvalue]; exact hn), hvalue]
  have hend : readFraction negative ⟨n, 0, false⟩ []
      = (integral negative ⟨n, 0, false⟩).map (·, []) := rfl
  -- the two ways in which digits are no magnitude
  have hfirst : digitValues (Nat.toDigits 10 n) ≠ []
      ∧ ∀ m ns, digitValues (Nat.toDigits 10 n) ≠ 0 :: m :: ns := by
    refine ⟨digitValues_ne_nil Nat.toDigits_ne_nil, fun m ns heq => ?_⟩
    rcases Nat.eq_zero_or_pos n with rfl | hpos
    · cases heq
    · obtain ⟨c, cs, hcs, hc⟩ := head_toDigits hpos
      rw [hcs] at heq
      exact hc (List.cons.inj heq).1
  rw [readMagnitude, hread]
  split
  · next heq => exact absurd (congrArg Prod.fst heq) hfirst.1
  · next heq => exact absurd (congrArg Prod.fst heq) (hfirst.2 _ _)
  · next heq =>
      obtain ⟨rfl, rfl⟩ := Prod.mk.inj heq
      rw [hsum, hend]

/-- A text that starts with a digit has no sign. -/
theorem readNumber_toDigits (n : Nat) :
    readNumber (Nat.toDigits 10 n) = readMagnitude false (Nat.toDigits 10 n) := by
  obtain ⟨hne, hdigits⟩ := isDigits_toDigits n
  obtain ⟨c, cs, hcs⟩ := List.exists_cons_of_ne_nil hne
  have hc : c ≠ '-' := ne_minus_of_isDigit (hdigits c (hcs ▸ List.mem_cons_self))
  rw [hcs]
  simp [readNumber, hc]

end Json

open Json

/-- An integer of 64 bits is read back. -/
theorem Number.retold_int {i : Int} (h : (Number.int i).InRange) :
    (Number.int i).retold = some (.int i) := by
  obtain ⟨hlow, hhigh⟩ := h
  have hbits : i.natAbs < Nat.pow 2 64 := by
    show i.natAbs < 18446744073709551616
    omega
  rw [Number.retold]
  show (readNumber (intText i)).map _ = _
  rw [intText]
  split
  next hneg =>
    have hint : integral true ⟨i.natAbs, 0, false⟩ = some (.int i) := by
      -- otherwise it would be read as a floating-point value
      have hsmall : ¬(i.natAbs = 0 ∨ Nat.pow 2 63 < i.natAbs) := by
        show ¬(i.natAbs = 0 ∨ 9223372036854775808 < i.natAbs)
        omega
      have hvalue : -(i.natAbs : Int) = i := by omega
      rw [integral, if_neg Bool.false_ne_true, if_pos rfl, if_neg hsmall, hvalue]
    show (readMagnitude true (Nat.toDigits 10 i.natAbs)).map _ = _
    rw [readMagnitude_toDigits hbits, hint]
    rfl
  next hpos =>
    have hint : integral false ⟨i.natAbs, 0, false⟩ = some (.int i) := by
      have hvalue : (i.natAbs : Int) = i := by omega
      rw [integral, if_neg Bool.false_ne_true, if_neg Bool.false_ne_true, hvalue]
    rw [readNumber_toDigits, readMagnitude_toDigits hbits, hint]
    rfl

/-! ## What is read -/

namespace Json

theorem inRange_scaled {negative : Bool} {d : Digits} {n : Number}
    (h : scaled negative d = some n) : n.InRange := by
  obtain ⟨x, -, rfl⟩ := Option.map_eq_some_iff.mp h
  trivial

theorem inRange_withExponent {negative down : Bool} {d : Digits} {ns : List Nat}
    {n : Number} (h : withExponent negative d down ns = some n) : n.InRange := by
  simp only [withExponent] at h
  split at h
  · split at h
    · cases h
    · obtain rfl := Option.some.inj h
      trivial
  · exact inRange_scaled h

theorem inRange_integral {negative : Bool} {d : Digits} {n : Number}
    (hd : d.significand < Nat.pow 2 64) (h : integral negative d = some n) :
    n.InRange := by
  have hbits : d.significand < 18446744073709551616 := hd
  rw [integral] at h
  split at h
  · exact inRange_scaled h
  split at h
  · split at h
    · obtain rfl := Option.some.inj h
      trivial
    · next hsmall =>
        obtain rfl := Option.some.inj h
        have hle : ¬9223372036854775808 < d.significand := fun hlt => hsmall (.inr hlt)
        exact ⟨by omega, by omega⟩
  · obtain rfl := Option.some.inj h
    exact ⟨by omega, by omega⟩

theorem inRange_readExponent {negative : Bool} {d : Digits} {plain : Option Number}
    (hplain : ∀ n, plain = some n → n.InRange) {cs rest : List Char} {n : Number}
    (h : readExponent negative d plain cs = some (n, rest)) : n.InRange := by
  cases cs with
  | nil =>
      obtain ⟨m, hm, heq⟩ := Option.map_eq_some_iff.mp h
      obtain ⟨rfl, -⟩ := Prod.mk.inj heq
      exact hplain m hm
  | cons c cs =>
      simp only [readExponent] at h
      split at h
      · split at h
        · cases h
        · obtain ⟨m, hm, heq⟩ := Option.map_eq_some_iff.mp h
          obtain ⟨rfl, -⟩ := Prod.mk.inj heq
          exact inRange_withExponent hm
      · obtain ⟨m, hm, heq⟩ := Option.map_eq_some_iff.mp h
        obtain ⟨rfl, -⟩ := Prod.mk.inj heq
        exact hplain m hm

theorem inRange_readFraction {negative : Bool} {d : Digits}
    (hd : d.significand < Nat.pow 2 64) {cs rest : List Char} {n : Number}
    (h : readFraction negative d cs = some (n, rest)) : n.InRange := by
  unfold readFraction at h
  split at h
  · split at h
    · cases h
    · exact inRange_readExponent (fun m hm => inRange_scaled hm) h
  · exact inRange_readExponent (fun m hm => inRange_integral hd hm) h

/-- However many digits there are, 64 bits of them are kept. -/
theorem significand_foldl_whole (ns : List Nat) {d : Digits}
    (hd : d.significand < Nat.pow 2 64) :
    (ns.foldl Digits.whole d).significand < Nat.pow 2 64 := by
  induction ns generalizing d with
  | nil => exact hd
  | cons n ns ih =>
      refine ih (d := d.whole n) ?_
      rw [Digits.whole]
      split
      · exact hd
      split
      · exact hd
      · next hfits => exact Nat.not_le.mp hfits

theorem inRange_readMagnitude {negative : Bool} {cs rest : List Char} {n : Number}
    (h : readMagnitude negative cs = some (n, rest)) : n.InRange := by
  rw [readMagnitude] at h
  split at h
  · cases h
  · cases h
  · exact inRange_readFraction (significand_foldl_whole _ (by decide)) h

theorem inRange_readNumber {cs rest : List Char} {n : Number}
    (h : readNumber cs = some (n, rest)) : n.InRange := by
  unfold readNumber at h
  split at h
  · exact inRange_readMagnitude h
  · exact inRange_readMagnitude h

end Json

/-- What is read from the text of a number can be held. -/
theorem Number.inRange_retold {m n : Number} (h : m.retold = some n) : n.InRange := by
  obtain ⟨⟨n, rest⟩, hread, rfl⟩ := Option.map_eq_some_iff.mp h
  exact inRange_readNumber hread

end LinkedContracts
