import LinkedContracts.Proofs.Instant
import LinkedContracts.Proofs.Kernel.Bootstrapped
import LinkedContracts.Proofs.Kernel.Reachable
import LinkedContracts.Proofs.Pattern

/-! # A new store

    The format of ids tells no digits apart, so that a number in twelve
    digits makes an id as zeros do.  A new store that is given such ids in
    order, and the seconds since the epoch for times, can be initialized. -/

namespace LinkedContracts

/-- The id that ends in some characters. -/
def idEndingIn (digits : List Char) : String :=
  String.ofList ("00000000-0000-4000-8000-".toList ++ digits)

/-- The format of ids is an expression that matches an id of zeros, and does
    not tell other digits from zeros. -/
theorem uuid_blind : (Schema.formatPattern? "uuid").all (fun source =>
    (Pattern.compile? source false).any fun r =>
      r.matchesIn (idEndingIn (List.replicate 12 '0'))
        && (List.range 10).all fun n => !r.tells (Char.ofNat (48 + n)) '0') = true := by
  decide +kernel

/-- An id that ends in twelve digits is of the format of ids. -/
theorem isUuid_idEndingIn {digits : List Char} (hlength : digits.length = 12)
    (hdigits : ∀ c ∈ digits, c.isDigit = true) : IsUuid (idEndingIn digits) := by
  have hblind := uuid_blind
  simp only [IsUuid, Keywords.matchesPattern, Option.all_eq_true, Option.any_eq_true,
    Bool.and_eq_true, List.all_eq_true, List.mem_range, Bool.not_eq_true'] at hblind ⊢
  intro source hsource
  obtain ⟨r, hr, hzeros, htells⟩ := hblind source hsource
  refine ⟨⟨source, false, r.matchesIn⟩, ?_, ?_⟩
  · show ((Pattern.compile? source false).map Regex.matchesIn).map _ = _
    rw [hr]
    rfl
  show r.matchesIn (idEndingIn digits) = true
  rw [← hzeros]
  refine Regex.matchesIn_append _ ((hlength.trans List.length_replicate.symm)) ?_
  intro c hc d hd
  rw [List.eq_of_mem_replicate hd]
  have hbounds : 48 ≤ c.toNat ∧ c.toNat ≤ 57 := by
    simpa [Char.isDigit, UInt32.le_iff_toNat_le] using hdigits c hc
  have hdigit := htells (c.toNat - 48) (by omega)
  rwa [Nat.add_sub_cancel' hbounds.1, Char.ofNat_toNat] at hdigit

theorem parse?_seconds {n : Nat} (h : n < 60) :
    Instant.parse? (Instant.text ⟨n, 0⟩) = some ⟨n, 0⟩ := by
  have hparts : ∀ n < 60, Instant.ofParts ⟨(n : Nat), 0⟩ = some ⟨(n : Nat), 0⟩ := by
    decide +kernel
  rw [Instant.parse?_text _ (by dsimp only; omega), hparts n h]

namespace Kernel

/-- A kernel with an empty store, and a supply of ids in order. -/
def opening : Kernel where
  settings := {}
  supply := ⟨fun n => idEndingIn (Instant.padded 12 n), fun n => ⟨n, 0⟩, 0⟩

theorem opening_reachable : Reachable opening :=
  have hopening : create {} opening.supply = .ok opening := rfl
  .created hopening

theorem opening_supplied {uses : Nat} (h : uses ≤ 60) : opening.Supplied uses := by
  constructor
  · intro i hi
    have hlt : 0 + i < Nat.pow 10 12 := Nat.lt_of_lt_of_le (by omega : 0 + i < 60) (by decide)
    exact isUuid_idEndingIn (Instant.length_padded hlt (by decide))
      (Instant.isDigits_padded 12 _).2
  · intro i _
    rfl
  · intro i _ j _ heq
    have hdigits := List.append_cancel_left (String.ofList_injective heq)
    have hvalue := congrArg (Nat.ofDigitChars 10 · 0) hdigits
    simp only [Instant.ofDigitChars_padded] at hvalue
    exact Nat.add_left_cancel hvalue
  · intro i hi
    exact parse?_seconds (by omega : 0 + i < 60)

end Kernel

end LinkedContracts
