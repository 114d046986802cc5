import LinkedContracts.Proofs.Instant

/-! # Instants in range

    An instant in the range of dates has a text that is read: as the same
    instant, unless it has a leap second that does not end a minute, which is
    read as the start of the second after.  Whatever is read is in range, and
    its leap second, if it has one, ends a minute. -/

namespace LinkedContracts

namespace Instant

/-- Whether an instant can be held: it is in the range of dates, and no more
    than a leap second is past its second. -/
structure InRange (t : Instant) : Prop where
  low : Date.toDays ⟨-262143, 1, 1⟩ * 86400 ≤ t.seconds
  high : t.seconds ≤ Date.toDays ⟨262142, 12, 31⟩ * 86400 + 86399
  nanos : t.nanos < 2000000000

/-- Whether a leap second, if there is one, ends a minute. -/
def Aligned (t : Instant) : Prop := t.nanos < 1000000000 ∨ t.seconds % 60 = 59

/-- The instant with a leap second at the end of a minute only; any other is
    the start of the next second. -/
def aligned (t : Instant) : Instant :=
  if 1000000000 ≤ t.nanos ∧ t.seconds % 60 ≠ 59 then
    ⟨t.seconds + 1, t.nanos - 1000000000⟩
  else t

theorem aligned_eq_iff {t : Instant} : t.aligned = t ↔ t.Aligned := by
  rw [aligned, Aligned]
  split
  next h =>
    have hne : (⟨t.seconds + 1, t.nanos - 1000000000⟩ : Instant) ≠ t := fun heq => by
      have hseconds := congrArg Instant.seconds heq
      dsimp only at hseconds
      omega
    simp only [hne, false_iff]
    omega
  next h =>
    simp only [true_iff]
    omega

/-! ## Days of a year

    Years are counted from March here, as where the date of a day is found. -/

/-- The day of a year. -/
def Date.ofYear (year n : Int) : Date :=
  let m := (5 * n + 2) / 153
  let month := if m < 10 then m + 3 else m - 9
  ⟨if month ≤ 2 then year + 1 else year, month.toNat,
    (n - (153 * m + 2) / 5 + 1).toNat⟩

theorem isLeapYear_add_eras (y era : Int) :
    isLeapYear (y + era * 400) = isLeapYear y := by
  have h4 : (y + era * 400) % 4 = y % 4 := by omega
  have h100 : (y + era * 400) % 100 = y % 100 := by omega
  have h400 : (y + era * 400) % 400 = y % 400 := by omega
  rw [isLeapYear, isLeapYear, h4, h100, h400]

/-- A year with a day past the 365th ends in a leap day. -/
theorem isLeapYear_of_dayOfYear {d y : Int} (h : 0 ≤ d ∧ d < 146097)
    (hy : y = (d - d / 1460 + d / 36524 - d / 146096) / 365)
    (hn : d - (365 * y + y / 4 - y / 100) = 365) : isLeapYear (y + 1) = true := by
  have hleap : (y + 1) % 4 = 0 ∧ ((y + 1) % 100 ≠ 0 ∨ (y + 1) % 400 = 0) := by
    -- the last day of an era is counted into its last year by itself
    rcases Int.lt_or_le d 146096 with hlt | hge
    · have hlast : d / 146096 = 0 := by omega
      rw [hlast] at hy
      generalize he : d / 36524 = e at hy
      have hcentury : e = 0 ∨ e = 1 ∨ e = 2 ∨ e = 3 := by omega
      have hi : y / 100 = e := by
        rcases hcentury with rfl | rfl | rfl | rfl <;> omega
      rw [hi] at hn
      have hfourth : y % 4 = 3 := Decidable.byContradiction fun hs => by
        have hdays : d / 1460 ≤ y / 4 := by omega
        omega
      omega
    · omega
  simpa [isLeapYear] using hleap

/-- The date of a day by its era, the year of the era and the day of the year. -/
theorem ofDays_eq_ofYear (days : Int) :
    ∃ era y n, Date.ofDays days = Date.ofYear (y + era * 400) n
      ∧ (0 ≤ y ∧ y < 400) ∧ (0 ≤ n ∧ n ≤ 365)
      ∧ (n = 365 → isLeapYear (y + era * 400 + 1) = true)
      ∧ days = era * 146097 + (y * 365 + y / 4 - y / 100 + n) - 719468 := by
  obtain ⟨d, hd⟩ : ∃ d, d = (days + 719468) % 146097 := ⟨_, rfl⟩
  obtain ⟨y, hy⟩ : ∃ y, y = (d - d / 1460 + d / 36524 - d / 146096) / 365 :=
    ⟨_, rfl⟩
  obtain ⟨n, hn⟩ : ∃ n, n = d - (365 * y + y / 4 - y / 100) := ⟨_, rfl⟩
  have hera : 0 ≤ d ∧ d < 146097 := by omega
  have hbounds : 0 ≤ n ∧ n ≤ 365 := hn ▸ dayOfYear_bounds hera hy
  refine ⟨(days + 719468) / 146097, y, n, ?_, by omega, hbounds, fun hlast => ?_,
    by omega⟩
  · subst hn hy hd
    rfl
  · have hnext : y + (days + 719468) / 146097 * 400 + 1
        = y + 1 + (days + 719468) / 146097 * 400 := by omega
    rw [hnext, isLeapYear_add_eras]
    exact isLeapYear_of_dayOfYear hera hy (hn.symm.trans hlast)

/-- A day of a year is a day of one of its months. -/
theorem day_ofYear_le {year n : Int} (hn : 0 ≤ n ∧ n ≤ 365)
    (hlast : n = 365 → isLeapYear (year + 1) = true) :
    let d := Date.ofYear year n
    1 ≤ d.month ∧ d.month ≤ 12 ∧ 1 ≤ d.day ∧ d.day ≤ daysInMonth d.year d.month := by
  obtain ⟨m, hm⟩ : ∃ m, m = (5 * n + 2) / 153 := ⟨_, rfl⟩
  simp only [Date.ofYear, ← hm]
  -- counted from March, a year ends with February
  by_cases hfebruary : m = 11
  · subst hfebruary
    have hdays : (n - 337 + 1).toNat ≤ if isLeapYear (year + 1) then 29 else 28 := by
      split
      · omega
      · next hleap =>
          have hne : n ≠ 365 := fun h => hleap (hlast h)
          omega
    exact ⟨by decide, by decide, by omega, hdays⟩
  · have hmonth : m = 0 ∨ m = 1 ∨ m = 2 ∨ m = 3 ∨ m = 4 ∨ m = 5 ∨ m = 6 ∨ m = 7
        ∨ m = 8 ∨ m = 9 ∨ m = 10 := by omega
    rcases hmonth with rfl | rfl | rfl | rfl | rfl | rfl | rfl | rfl | rfl | rfl | rfl
    all_goals
      simp [daysInMonth]
      omega

/-- The date of a day in range exists. -/
theorem valid_ofDays {days : Int} (hlow : Date.toDays ⟨-262143, 1, 1⟩ ≤ days)
    (hhigh : days ≤ Date.toDays ⟨262142, 12, 31⟩) : (Date.ofDays days).valid = true := by
  have hfirst : Date.toDays ⟨-262143, 1, 1⟩ = -96465292 := by decide
  have hlast : Date.toDays ⟨262142, 12, 31⟩ = 95026236 := by decide
  rw [hfirst] at hlow
  rw [hlast] at hhigh
  obtain ⟨era, y, n, hdate, hy, hn, hleap, hdays⟩ := ofDays_eq_ofYear days
  have hmonth := day_ofYear_le hn hleap
  have hyear : -262143 ≤ (Date.ofYear (y + era * 400) n).year
      ∧ (Date.ofYear (y + era * 400) n).year ≤ 262142 := by
    -- the range cuts off the start of its first era and the end of its last
    have hera : era = -656 ∧ 256 ≤ y ∨ -655 ≤ era ∧ era ≤ 654 ∨ era = 655 ∧ y ≤ 142 := by
      omega
    generalize hm : (5 * n + 2) / 153 = m
    simp only [Date.ofYear, hm]
    by_cases hearly : m < 10
    · rw [if_pos hearly, if_neg (by omega)]
      omega
    · rw [if_neg hearly, if_pos (by omega)]
      omega
  rw [hdate, Date.valid, decide_eq_true_iff]
  exact ⟨hyear.1, hyear.2, hmonth⟩

/-! ## Texts of instants in range -/

/-- The parts of an instant in range are read. -/
theorem ofParts_eq {t : Instant} (h : t.InRange) : t.ofParts = some t.aligned := by
  have hfirst : Date.toDays ⟨-262143, 1, 1⟩ = -96465292 := by decide
  have hlast : Date.toDays ⟨262142, 12, 31⟩ = 95026236 := by decide
  obtain ⟨hlow, hhigh, hnanos⟩ := h
  have hvalid : (Date.ofDays (t.seconds / 86400)).valid = true :=
    valid_ofDays (by omega) (by omega)
  rw [hfirst] at hlow
  rw [hlast] at hhigh
  have hs : t.seconds % 86400 = ((t.seconds % 86400).toNat : Int) := by omega
  have hlt : (t.seconds % 86400).toNat < 86400 := by omega
  simp only [ofParts, ofLocal, toDays_ofDays, hfirst, hlast]
  generalize (t.seconds % 86400).toNat = s at hs hlt ⊢
  have hminute : s / 60 * 60 = s / 3600 * 3600 + s / 60 % 60 * 60 := by omega
  rw [if_pos ⟨hvalid, by omega, by omega, by omega, by omega, by omega⟩, aligned]
  obtain ⟨seconds, nanos⟩ := t
  dsimp only at *
  -- second 60 of a text is read as a leap second, any other as it stands
  by_cases hleap : 1000000000 ≤ nanos ∧ seconds % 60 ≠ 59
  · have hnext : nanos / 1000000000 = 1 ∧ (s % 60 + 1) / 60 = 0 := by omega
    rw [if_pos hleap, hnext.1, hnext.2, if_pos (by omega)]
    refine congrArg some ((Instant.mk.injEq ..).mpr ?_)
    omega
  · have hlast : (s % 60 + nanos / 1000000000) / 60 = nanos / 1000000000 := by omega
    rw [if_neg hleap, hlast, Nat.add_sub_cancel, if_pos (by omega)]
    refine congrArg some ((Instant.mk.injEq ..).mpr ?_)
    omega

/-- The text of an instant in range is read. -/
theorem parse?_text_of_inRange {t : Instant} (h : t.InRange) :
    parse? t.text = some t.aligned := by
  have hnanos := h.nanos
  rw [parse?_text t (by omega), ofParts_eq h]

/-! ## What is read -/

/-- Digits stand for less than the power of ten after them. -/
theorem foldl_digits_lt {ds : List Char} (hds : ∀ c ∈ ds, c.isDigit = true) (a : Nat) :
    ds.foldl (fun n c => n * 10 + (c.toNat - '0'.toNat)) a
      < (a + 1) * Nat.pow 10 ds.length := by
  induction ds generalizing a with
  | nil => show a < (a + 1) * 1; omega
  | cons d ds ih =>
      obtain ⟨hd, hrest⟩ := List.forall_mem_cons.mp hds
      have hvalue : d.toNat - '0'.toNat ≤ 9 := by
        have hbounds : 48 ≤ d.toNat ∧ d.toNat ≤ 57 := by
          simpa [Char.isDigit, UInt32.le_iff_toNat_le] using hd
        show d.toNat - 48 ≤ 9
        omega
      rw [List.foldl_cons, List.length_cons]
      refine Nat.lt_of_lt_of_le (ih hrest _) ?_
      calc (a * 10 + (d.toNat - '0'.toNat) + 1) * Nat.pow 10 ds.length
          ≤ ((a + 1) * 10) * Nat.pow 10 ds.length :=
            Nat.mul_le_mul_right _ (by omega)
        _ = (a + 1) * Nat.pow 10 (ds.length + 1) := by
            rw [Nat.pow_eq, Nat.pow_eq, Nat.pow_succ, Nat.mul_assoc, Nat.mul_comm 10]

/-- The decimals of a second are less than a second. -/
theorem nanos_of_fraction {cs rest : List Char} {n : Nat}
    (h : fraction cs = some (n, rest)) : n < 1000000000 := by
  unfold fraction at h
  split at h
  · next after =>
      obtain ⟨⟨m, r⟩, hread, heq⟩ := Option.map_eq_some_iff.mp h
      obtain ⟨rfl, -⟩ := Prod.mk.inj heq
      obtain ⟨-, hread⟩ := Option.ite_none_left_eq_some.mp hread
      obtain ⟨rfl, rfl⟩ := Prod.mk.inj (Option.some.inj hread)
      generalize hds : (after.take 9).takeWhile Char.isDigit = ds
      have hdigits : ∀ c ∈ ds, c.isDigit = true := fun c hc =>
        List.all_eq_true.mp (hds ▸ List.all_takeWhile) c hc
      have hlength : ds.length ≤ 9 ∧ ds.length ≤ after.length := by
        have hle := (List.takeWhile_sublist (l := after.take 9) Char.isDigit).length_le
        rw [hds, List.length_take] at hle
        omega
      have hlt := foldl_digits_lt hdigits 0
      have hrest : after.length - (after.drop ds.length).length = ds.length := by
        rw [List.length_drop]
        omega
      rw [hrest]
      calc ds.foldl (fun n c => n * 10 + (c.toNat - '0'.toNat)) 0
            * Nat.pow 10 (9 - ds.length)
          < (0 + 1) * Nat.pow 10 ds.length * Nat.pow 10 (9 - ds.length) :=
            Nat.mul_lt_mul_of_pos_right hlt (Nat.pow_pos (by decide))
        _ = 1000000000 := by
            rw [Nat.one_mul, Nat.pow_eq, Nat.pow_eq, ← Nat.pow_add,
              Nat.add_sub_cancel' hlength.1]
  · obtain ⟨rfl, -⟩ := Prod.mk.inj (Option.some.inj h)
    decide

/-- Time zones are whole minutes from universal time. -/
theorem east_of_lenientZone {cs rest : List Char} {east : Int}
    (h : lenientZone cs = some (east, rest)) : east % 60 = 0 := by
  rw [lenientZone] at h
  split at h
  · obtain ⟨rfl, -⟩ := Prod.mk.inj (Option.some.inj h)
    rfl
  · cases cs with
    | nil => cases h
    | cons c cs =>
        rw [zone] at h
        split at h
        · obtain ⟨rfl, -⟩ := Prod.mk.inj (Option.some.inj h)
          rfl
        split at h
        · obtain ⟨⟨hours, r⟩, -, h⟩ := Option.bind_eq_some_iff.mp h
          obtain ⟨r', -, h⟩ := Option.bind_eq_some_iff.mp h
          obtain ⟨⟨minutes, r''⟩, -, h⟩ := Option.bind_eq_some_iff.mp h
          obtain ⟨-, h⟩ := Option.ite_none_left_eq_some.mp h
          obtain ⟨rfl, -⟩ := Prod.mk.inj (Option.some.inj h)
          split <;> omega
        · cases h

/-- An instant that is read is in range, and its leap second, if it has one,
    ends a minute. -/
theorem inRange_of_parse? {text : String} {t : Instant} (h : parse? text = some t) :
    t.InRange ∧ t.Aligned := by
  rw [parse?] at h
  obtain ⟨⟨year, r⟩, -, h⟩ := Option.bind_eq_some_iff.mp h
  obtain ⟨r, -, h⟩ := Option.bind_eq_some_iff.mp h
  obtain ⟨⟨month, r⟩, -, h⟩ := Option.bind_eq_some_iff.mp h
  obtain ⟨r, -, h⟩ := Option.bind_eq_some_iff.mp h
  obtain ⟨⟨day, r⟩, -, h⟩ := Option.bind_eq_some_iff.mp h
  obtain ⟨r, -, h⟩ := Option.bind_eq_some_iff.mp h
  obtain ⟨⟨hour, r⟩, -, h⟩ := Option.bind_eq_some_iff.mp h
  obtain ⟨r, -, h⟩ := Option.bind_eq_some_iff.mp h
  obtain ⟨⟨minute, r⟩, -, h⟩ := Option.bind_eq_some_iff.mp h
  obtain ⟨r, -, h⟩ := Option.bind_eq_some_iff.mp h
  obtain ⟨⟨second, r⟩, -, h⟩ := Option.bind_eq_some_iff.mp h
  obtain ⟨⟨nanos, r⟩, hfraction, h⟩ := Option.bind_eq_some_iff.mp h
  obtain ⟨⟨east, r⟩, hzone, h⟩ := Option.bind_eq_some_iff.mp h
  have hnanos := nanos_of_fraction hfraction
  have heast := east_of_lenientZone hzone
  obtain ⟨-, h⟩ := Option.ite_none_right_eq_some.mp h
  obtain ⟨hlocal, h⟩ := Option.ite_none_right_eq_some.mp h
  obtain ⟨hrange, h⟩ := Option.ite_none_right_eq_some.mp h
  obtain rfl := Option.some.inj h
  have hsecond : second ≤ 60 := hlocal.2.2.2.1
  refine ⟨⟨hrange.1, hrange.2, ?_⟩, ?_⟩
  · dsimp only
    omega
  · rw [Aligned]
    dsimp only
    generalize Date.toDays ⟨year, month, day⟩ = days
    omega

/-- The instants that are read back from their texts. -/
theorem parse?_text_eq_some_iff {t : Instant} :
    parse? t.text = some t ↔ t.InRange ∧ t.Aligned := by
  refine ⟨inRange_of_parse?, fun ⟨hrange, haligned⟩ => ?_⟩
  rw [parse?_text_of_inRange hrange, aligned_eq_iff.mpr haligned]

end Instant

end LinkedContracts
