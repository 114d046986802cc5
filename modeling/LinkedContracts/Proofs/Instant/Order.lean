import LinkedContracts.Proofs.Instant.Range
import Mathlib.Data.String.Basic

/-! # Texts of instants in order

    The texts of instants in years of four digits stand in the order of the
    instants up to the time zone, although they differ in the number of
    decimals.  Where one of them ends and the other goes on, the zone decides:
    `+00:00` comes before everything that a text goes on with, and `Z` after
    it.  So the texts that rows are ordered by are in the order of the
    instants, and those in documents are but for the instants cut off. -/

namespace LinkedContracts

namespace Instant

open Json

/-- Whether an instant is before another. -/
def Earlier (t u : Instant) : Prop :=
  t.seconds < u.seconds ∨ t.seconds = u.seconds ∧ t.nanos < u.nanos

theorem earlier_trichotomy (t u : Instant) : t.Earlier u ∨ t = u ∨ u.Earlier t := by
  obtain ⟨seconds, nanos⟩ := t
  obtain ⟨seconds', nanos'⟩ := u
  simp only [Earlier, Instant.mk.injEq]
  omega

theorem Earlier.asymm {t u : Instant} (h : t.Earlier u) : ¬u.Earlier t := by
  rw [Earlier] at h ⊢
  omega

/-! ## Digits in order -/

/-- The value of digits after a point, as a number of places. -/
def decimals : Nat → List Char → Nat
  | places + 1, c :: cs =>
      (c.toNat - '0'.toNat) * 10 ^ places + decimals places cs
  | _, _ => 0

theorem digit_bounds {c : Char} (hc : c.isDigit = true) :
    c.toNat - '0'.toNat ≤ 9 ∧ c.toNat = c.toNat - '0'.toNat + 48 := by
  have hbounds : 48 ≤ c.toNat ∧ c.toNat ≤ 57 := by
    simpa [Char.isDigit, UInt32.le_iff_toNat_le] using hc
  have hzero : '0'.toNat = 48 := rfl
  omega

theorem decimals_lt {cs : List Char} (hcs : ∀ c ∈ cs, c.isDigit = true) (places : Nat) :
    decimals places cs < 10 ^ places := by
  induction cs generalizing places with
  | nil => cases places <;> exact Nat.pow_pos (by decide)
  | cons c cs ih =>
      obtain ⟨hc, hrest⟩ := List.forall_mem_cons.mp hcs
      cases places with
      | zero => exact Nat.pow_pos (by decide)
      | succ places =>
          have hdigit := (digit_bounds hc).1
          calc decimals (places + 1) (c :: cs)
              < (c.toNat - '0'.toNat) * 10 ^ places + 10 ^ places :=
                Nat.add_lt_add_left (ih hrest places) _
            _ = (c.toNat - '0'.toNat + 1) * 10 ^ places := (Nat.succ_mul ..).symm
            _ ≤ 10 * 10 ^ places := Nat.mul_le_mul_right _ (by omega)
            _ = 10 ^ (places + 1) := by rw [Nat.pow_succ, Nat.mul_comm]

/-- Digits after a point are in the order of their values, however many there
    are. -/
theorem lt_of_decimals_lt {places : Nat} {cs ds : List Char}
    (hcs : ∀ c ∈ cs, c.isDigit = true) (hds : ∀ d ∈ ds, d.isDigit = true)
    (h : decimals places cs < decimals places ds) : cs < ds := by
  induction cs generalizing places ds with
  | nil =>
      cases ds with
      | nil => exact absurd h (Nat.lt_irrefl _)
      | cons d ds => exact List.nil_lt_cons d ds
  | cons c cs ih =>
      obtain ⟨hc, hrest⟩ := List.forall_mem_cons.mp hcs
      cases places with
      | zero => exact absurd h (Nat.lt_irrefl _)
      | succ places =>
          cases ds with
          | nil => exact absurd h (Nat.not_lt_zero _)
          | cons d ds =>
              obtain ⟨hd, hrest'⟩ := List.forall_mem_cons.mp hds
              have hcvalue := (digit_bounds hc).2
              have hdvalue := (digit_bounds hd).2
              simp only [decimals] at h
              rw [List.cons_lt_cons_iff]
              rcases Nat.lt_trichotomy c.toNat d.toNat with hlt | heq | hgt
              · exact .inl (Char.lt_def.mpr (UInt32.lt_iff_toNat_lt.mpr hlt))
              · have hchar : c = d := Char.toNat_inj.mp heq
                subst hchar
                exact .inr ⟨rfl, ih hrest hrest' (Nat.lt_of_add_lt_add_left h)⟩
              · have hbound := decimals_lt hrest' places
                have hmul : (d.toNat - '0'.toNat + 1) * 10 ^ places
                    ≤ (c.toNat - '0'.toNat) * 10 ^ places :=
                  Nat.mul_le_mul_right _ (by omega)
                rw [Nat.succ_mul] at hmul
                omega

theorem decimals_eq {places : Nat} {cs : List Char} (h : cs.length ≤ places) :
    decimals places cs = Nat.ofDigitChars 10 cs 0 * 10 ^ (places - cs.length) := by
  induction cs generalizing places with
  | nil => cases places <;> simp [decimals]
  | cons c cs ih =>
      cases places with
      | zero => exact absurd h (Nat.not_succ_le_zero _)
      | succ places =>
          have hle : cs.length ≤ places := Nat.le_of_succ_le_succ h
          have hpow : 10 ^ cs.length * 10 ^ (places - cs.length) = 10 ^ places := by
            rw [← Nat.pow_add, Nat.add_sub_cancel' hle]
          generalize hd : c.toNat - '0'.toNat = d
          have hvalue : Nat.ofDigitChars 10 (c :: cs) 0
              = d * 10 ^ cs.length + Nat.ofDigitChars 10 cs 0 := by
            rw [Nat.ofDigitChars_cons, Nat.ofDigitChars_eq_ofDigitChars_zero, hd,
              Nat.mul_zero, Nat.zero_add, Nat.mul_comm]
          rw [decimals, hd, ih hle, hvalue, List.length_cons, Nat.add_sub_add_right,
            Nat.add_mul, Nat.mul_assoc, hpow]

/-- Fixed numbers of digits are the value as decimals of as many places. -/
theorem decimals_padded {width places n : Nat} (hn : n < Nat.pow 10 width)
    (hwidth : 0 < width) (h : width ≤ places) :
    decimals places (padded width n) = n * 10 ^ (places - width) := by
  have hlength := length_padded hn hwidth
  rw [decimals_eq (hlength.symm ▸ h), ofDigitChars_padded, hlength]

/-! ## Fields in order -/

/-- What follows does not matter unless one text ends where the other goes on. -/
theorem append_lt_append_of_not_prefix {as bs : List Char} (h : as < bs)
    (hstart : ¬as <+: bs) (xs ys : List Char) : as ++ xs < bs ++ ys := by
  induction as generalizing bs with
  | nil => exact absurd List.nil_prefix hstart
  | cons a as ih =>
      cases bs with
      | nil => exact absurd h (List.not_lt_nil _)
      | cons b bs =>
          rw [List.cons_append, List.cons_append, List.cons_lt_cons_iff]
          refine (List.cons_lt_cons_iff.mp h).imp_right fun ⟨heq, hrest⟩ => ⟨heq, ?_⟩
          exact ih hrest fun hp => hstart (List.cons_prefix_cons.mpr ⟨heq, hp⟩)

theorem append_lt_append {as bs : List Char} (hlength : as.length = bs.length)
    (h : as < bs) (xs ys : List Char) : as ++ xs < bs ++ ys :=
  append_lt_append_of_not_prefix h
    (fun hstart => absurd (hstart.eq_of_length hlength) (ne_of_lt h)) xs ys

/-- Of texts that start with numbers of one width, the one with the smaller
    number comes first, whatever follows. -/
theorem padded_append_lt {width m n : Nat} {xs ys : List Char}
    (hm : m < Nat.pow 10 width) (hn : n < Nat.pow 10 width) (hwidth : 0 < width)
    (h : m < n ∨ m = n ∧ xs < ys) : padded width m ++ xs < padded width n ++ ys := by
  rcases h with hlt | ⟨rfl, hrest⟩
  · have hdecimals {k : Nat} (hk : k < Nat.pow 10 width) :
        decimals width (padded width k) = k := by
      rw [decimals_padded hk hwidth le_rfl, Nat.sub_self, Nat.pow_zero, Nat.mul_one]
    have hvalues : decimals width (padded width m) < decimals width (padded width n) := by
      rwa [hdecimals hm, hdecimals hn]
    have hlengths : (padded width m).length = (padded width n).length := by
      rw [length_padded hm hwidth, length_padded hn hwidth]
    exact append_lt_append hlengths
      (lt_of_decimals_lt (isDigits_padded _ _).2 (isDigits_padded _ _).2 hvalues) _ _
  · exact List.append_left_lt hrest

/-- The decimals of a second, if any. -/
theorem fractionText_cases {n : Nat} (hn : n < 1000000000) :
    n = 0 ∧ fractionText n = []
      ∨ ∃ ds, fractionText n = '.' :: ds ∧ (∀ d ∈ ds, d.isDigit = true)
        ∧ decimals 9 ds = n := by
  have hplaces {width k : Nat} (hk : k < Nat.pow 10 width) (hwidth : 0 < width)
      (hle : width ≤ 9) (heq : k * 10 ^ (9 - width) = n) :
      ∃ ds, '.' :: padded width k = '.' :: ds ∧ (∀ d ∈ ds, d.isDigit = true)
        ∧ decimals 9 ds = n :=
    ⟨_, rfl, (isDigits_padded _ _).2, (decimals_padded hk hwidth hle).trans heq⟩
  rw [fractionText]
  split
  next hzero => exact .inl ⟨hzero, rfl⟩
  split
  next hmilli => exact .inr (hplaces (by show _ < 1000; omega) (by decide) (by decide)
    (by show n / 1000000 * 1000000 = n; omega))
  split
  next hmicro => exact .inr (hplaces (by show _ < 1000000; omega) (by decide) (by decide)
    (by show n / 1000 * 1000 = n; omega))
  next => exact .inr (hplaces hn (by decide) (by decide) (Nat.mul_one n))

/-- Decimals are in order, however many there are. -/
theorem fractionText_lt {m n : Nat} (hn : n < 1000000000) (h : m < n) :
    fractionText m < fractionText n := by
  rcases fractionText_cases hn with ⟨rfl, -⟩ | ⟨ds, hds, hdigits, hvalue⟩
  · exact absurd h (Nat.not_lt_zero _)
  rw [hds]
  rcases fractionText_cases (Nat.lt_trans h hn) with ⟨-, hnone⟩ | ⟨cs, hcs, hdigits', hvalue'⟩
  · rw [hnone]
    exact List.nil_lt_cons _ _
  · have hvalues : decimals 9 cs < decimals 9 ds := by rwa [hvalue, hvalue']
    rw [hcs, List.cons_lt_cons_iff]
    exact .inr ⟨rfl, lt_of_decimals_lt hdigits' hdigits hvalues⟩

/-! ## Dates in order -/

/-- Whether a date is before another: by year, then by month, then by day. -/
def Date.Before (d e : Date) : Prop :=
  d.year < e.year ∨ d.year = e.year
    ∧ (d.month < e.month ∨ d.month = e.month ∧ d.day < e.day)

/-- The number of days before a year, counted from March. -/
def daysBefore (year : Int) : Int := year * 365 + year / 4 - year / 100 + year / 400

theorem daysBefore_mono {x y : Int} (h : x ≤ y) : daysBefore x ≤ daysBefore y := by
  rw [daysBefore, daysBefore]
  omega

theorem daysBefore_succ (year : Int) :
    daysBefore (year + 1) = daysBefore year + 365 + if isLeapYear (year + 1) then 1 else 0 := by
  rw [daysBefore, daysBefore]
  split
  next h =>
    simp [isLeapYear] at h
    omega
  next h =>
    simp [isLeapYear] at h
    omega

/-- The date of a day by its year and the day of the year. -/
theorem exists_ofYear (days : Int) :
    ∃ year n, Date.ofDays days = Date.ofYear year n ∧ (0 ≤ n ∧ n ≤ 365)
      ∧ (n = 365 → isLeapYear (year + 1) = true)
      ∧ days = daysBefore year + n - 719468 := by
  obtain ⟨era, y, n, hdate, hy, hn, hleap, hdays⟩ := ofDays_eq_ofYear days
  refine ⟨y + era * 400, n, hdate, hn, hleap, ?_⟩
  rw [daysBefore]
  omega

/-- The days of a year are in order. -/
theorem before_ofYear {x y m n : Int} (hm : 0 ≤ m ∧ m ≤ 365) (hn : 0 ≤ n ∧ n ≤ 365)
    (h : x < y ∨ x = y ∧ m < n) : (Date.ofYear x m).Before (Date.ofYear y n) := by
  obtain ⟨i, hi⟩ : ∃ i, i = (5 * m + 2) / 153 := ⟨_, rfl⟩
  obtain ⟨j, hj⟩ : ∃ j, j = (5 * n + 2) / 153 := ⟨_, rfl⟩
  simp only [Date.Before, Date.ofYear, ← hi, ← hj]
  -- January and February are the last months of a year
  by_cases hearly : i < 10 <;> by_cases hearly' : j < 10
  all_goals
    simp only [hearly, hearly', if_true, if_false]
    split <;> split <;> omega

/-- Later days have later dates. -/
theorem before_ofDays {m n : Int} (h : m < n) :
    (Date.ofDays m).Before (Date.ofDays n) := by
  obtain ⟨x, i, hdate, hi, -, hm⟩ := exists_ofYear m
  obtain ⟨y, j, hdate', hj, hleap, hn⟩ := exists_ofYear n
  rw [hdate, hdate']
  refine before_ofYear hi hj ?_
  rcases Int.lt_trichotomy x y with hlt | rfl | hgt
  · exact .inl hlt
  · exact .inr ⟨rfl, by omega⟩
  · have hmono := daysBefore_mono (Int.add_one_le_of_lt hgt)
    rw [daysBefore_succ] at hmono
    split at hmono
    · omega
    · next hcommon =>
        have hlast : j ≠ 365 := fun hj => hcommon (hleap hj)
        omega

/-! ## Texts in order -/

/-- Whether the year of an instant has four digits and no sign. -/
def FourDigit (t : Instant) : Prop :=
  let year := (Date.ofDays (t.seconds / 86400)).year
  0 ≤ year ∧ year ≤ 9999

instance (t : Instant) : Decidable t.FourDigit := inferInstanceAs (Decidable (_ ∧ _))

/-- The text of the time of day. -/
def clockText (t : Instant) : List Char :=
  let s := (t.seconds % 86400).toNat
  padded 2 (s / 3600) ++ ':' :: (padded 2 (s / 60 % 60)
    ++ ':' :: (padded 2 (s % 60 + t.nanos / 1000000000)
    ++ fractionText (t.nanos % 1000000000)))

theorem FourDigit.localText_eq {t : Instant} (h : t.FourDigit) :
    let date := Date.ofDays (t.seconds / 86400)
    t.localText = padded 4 date.year.toNat ++ '-' :: (padded 2 date.month
      ++ '-' :: (padded 2 date.day ++ 'T' :: t.clockText)) := by
  simp only [localText, yearText, if_pos (show _ ∧ _ from h), clockText,
    List.append_assoc, List.cons_append]

/-- On one day the times of day are in order, as a leap second ends its
    minute. -/
theorem clockText_lt {t u : Instant} (ht : t.Aligned) (hu : u.Aligned)
    (hnanos : t.nanos < 2000000000) (hnanos' : u.nanos < 2000000000)
    (hday : t.seconds / 86400 = u.seconds / 86400) (h : t.Earlier u) :
    t.clockText < u.clockText := by
  rw [Aligned] at ht hu
  rw [Earlier] at h
  have hs : t.seconds % 86400 = ((t.seconds % 86400).toNat : Int) := by omega
  have hs' : u.seconds % 86400 = ((u.seconds % 86400).toNat : Int) := by omega
  simp only [clockText]
  generalize (t.seconds % 86400).toNat = s at hs ⊢
  generalize (u.seconds % 86400).toNat = s' at hs' ⊢
  have hlt : s < 86400 ∧ s' < 86400 := by omega
  have hleap : t.nanos < 1000000000 ∨ s % 60 = 59 := by omega
  have hfields : s / 3600 < s' / 3600 ∨ s / 3600 = s' / 3600
      ∧ (s / 60 % 60 < s' / 60 % 60 ∨ s / 60 % 60 = s' / 60 % 60
      ∧ (s % 60 + t.nanos / 1000000000 < s' % 60 + u.nanos / 1000000000
        ∨ s % 60 + t.nanos / 1000000000 = s' % 60 + u.nanos / 1000000000
          ∧ t.nanos % 1000000000 < u.nanos % 1000000000)) := by
    omega
  have hwide {n : Nat} (hn : n < 100) : n < Nat.pow 10 2 := hn
  refine padded_append_lt (hwide (by omega)) (hwide (by omega)) (by decide)
    (hfields.imp_right (And.imp_right fun hminutes => List.cons_lt_cons_self.mpr ?_))
  refine padded_append_lt (hwide (by omega)) (hwide (by omega)) (by decide)
    (hminutes.imp_right (And.imp_right fun hseconds => List.cons_lt_cons_self.mpr ?_))
  exact padded_append_lt (hwide (by omega)) (hwide (by omega)) (by decide)
    (hseconds.imp_right (And.imp_right (fractionText_lt (Nat.mod_lt _ (by decide)))))

/-- Whether an instant is written as contracts write theirs: it is read back,
    and its year has four digits. -/
structure Writable (t : Instant) : Prop where
  readable : parse? t.text = some t
  fourDigit : t.FourDigit

instance (t : Instant) : Decidable t.Writable :=
  decidable_of_iff (parse? t.text = some t ∧ t.FourDigit)
    ⟨fun h => ⟨h.1, h.2⟩, fun h => ⟨h.readable, h.fourDigit⟩⟩

/-- The text of a date is in order before that of a later date, and what follows
    it decides between equal dates. -/
theorem dateText_append_lt {d e : Date} {xs ys : List Char}
    (hyear : 0 ≤ d.year ∧ d.year ≤ 9999) (hyear' : 0 ≤ e.year ∧ e.year ≤ 9999)
    (hmonth : d.month < 100) (hmonth' : e.month < 100)
    (hday : d.day < 100) (hday' : e.day < 100)
    (h : d.Before e ∨ d = e ∧ xs < ys) :
    padded 4 d.year.toNat ++ '-' :: (padded 2 d.month
        ++ '-' :: (padded 2 d.day ++ 'T' :: xs))
      < padded 4 e.year.toNat ++ '-' :: (padded 2 e.month
        ++ '-' :: (padded 2 e.day ++ 'T' :: ys)) := by
  have hfields : d.year.toNat < e.year.toNat ∨ d.year.toNat = e.year.toNat
      ∧ (d.month < e.month ∨ d.month = e.month
      ∧ (d.day < e.day ∨ d.day = e.day ∧ xs < ys)) := by
    rcases h with hbefore | ⟨rfl, hrest⟩
    · rw [Date.Before] at hbefore
      omega
    · exact .inr ⟨rfl, .inr ⟨rfl, .inr ⟨rfl, hrest⟩⟩⟩
  have hyears {y : Int} (hy : 0 ≤ y ∧ y ≤ 9999) : y.toNat < Nat.pow 10 4 := by
    show y.toNat < 10000
    omega
  refine padded_append_lt (hyears hyear) (hyears hyear') (by decide)
    (hfields.imp_right (And.imp_right fun hmonths => List.cons_lt_cons_self.mpr ?_))
  refine padded_append_lt hmonth hmonth' (by decide)
    (hmonths.imp_right (And.imp_right fun hdays => List.cons_lt_cons_self.mpr ?_))
  exact padded_append_lt hday hday' (by decide)
    (hdays.imp_right (And.imp_right List.cons_lt_cons_self.mpr))

/-- The texts of instants are in their order up to the time zone. -/
theorem Writable.localText_lt {t u : Instant} (ht : t.Writable) (hu : u.Writable)
    (h : t.Earlier u) : t.localText < u.localText := by
  obtain ⟨hrange, haligned⟩ := inRange_of_parse? ht.readable
  obtain ⟨hrange', haligned'⟩ := inRange_of_parse? hu.readable
  rw [ht.fourDigit.localText_eq, hu.fourDigit.localText_eq]
  refine dateText_append_lt ht.fourDigit hu.fourDigit (month_ofDays_lt _)
    (month_ofDays_lt _) (day_ofDays_lt _) (day_ofDays_lt _) ?_
  rcases Int.lt_or_le (t.seconds / 86400) (u.seconds / 86400) with hbefore | hday
  · exact .inl (before_ofDays hbefore)
  · have hsame : t.seconds / 86400 = u.seconds / 86400 := by
      rw [Earlier] at h
      omega
    exact .inr ⟨congrArg _ hsame,
      clockText_lt haligned haligned' hrange.nanos hrange'.nanos hsame h⟩

/-! ## Texts with a time zone -/

theorem digit_between {c : Char} (hc : c.isDigit = true) : '+' < c ∧ c < 'Z' := by
  have hbounds := digit_bounds hc
  simp only [Char.lt_def, UInt32.lt_iff_toNat_lt]
  show 43 < c.toNat ∧ c.toNat < 90
  omega

/-- What a local time is written with comes after the sign of a zone and before
    its letter. -/
theorem FourDigit.between {t : Instant} (h : t.FourDigit) :
    ∀ c ∈ t.localText, '+' < c ∧ c < 'Z' := by
  have hpadded {width n : Nat} {c : Char} (hc : c ∈ padded width n) :
      '+' < c ∧ c < 'Z' :=
    digit_between ((isDigits_padded _ _).2 c hc)
  have hfraction {c : Char} (hc : c ∈ fractionText (t.nanos % 1000000000)) :
      '+' < c ∧ c < 'Z' := by
    rcases fractionText_cases (Nat.mod_lt t.nanos (by decide : 0 < 1000000000)) with
      ⟨-, hnone⟩ | ⟨ds, hds, hdigits, -⟩
    · rw [hnone] at hc
      exact nomatch hc
    · rw [hds] at hc
      rcases List.mem_cons.mp hc with rfl | hc
      · decide
      · exact digit_between (hdigits c hc)
  intro c hc
  rw [h.localText_eq] at hc
  simp only [clockText, List.mem_append, List.mem_cons] at hc
  rcases hc with hc | rfl | hc | rfl | hc | rfl | hc | rfl | hc | rfl | hc | hc
  all_goals first
    | decide
    | exact hpadded hc
    | exact hfraction hc

/-- Each text of an instant tells the other. -/
theorem orderText_eq_iff {t u : Instant} : t.orderText = u.orderText ↔ t.text = u.text := by
  rw [orderText, orderText, text, text, String.ofList_inj, String.ofList_inj,
    List.append_left_inj, List.append_left_inj]

/-- Whether an instant is another one with decimals cut off: its text ends where
    that of the other goes on. -/
def CutOf (t u : Instant) : Prop :=
  t.localText <+: u.localText ∧ t.localText ≠ u.localText

instance (t u : Instant) : Decidable (t.CutOf u) := inferInstanceAs (Decidable (_ ∧ _))

/-- What a text goes on with where an instant cut off ends. -/
theorem CutOf.exists_rest {t u : Instant} (h : t.CutOf u) (hu : u.FourDigit) :
    ∃ c rest, u.localText = t.localText ++ c :: rest ∧ '+' < c ∧ c < 'Z' := by
  obtain ⟨⟨rest, hrest⟩, hne⟩ := h
  cases rest with
  | nil => exact absurd ((List.append_nil _).symm.trans hrest) hne
  | cons c rest =>
      refine ⟨c, rest, hrest.symm, hu.between c ?_⟩
      rw [← hrest]
      exact List.mem_append_right _ List.mem_cons_self

/-- In a document an instant cut off comes after the one it is cut off from. -/
theorem CutOf.text_lt {t u : Instant} (h : t.CutOf u) (hu : u.FourDigit) :
    u.text < t.text := by
  obtain ⟨c, rest, heq, -, hletter⟩ := h.exists_rest hu
  rw [String.lt_iff_toList_lt, text, text, String.toList_ofList, String.toList_ofList,
    heq, List.append_assoc]
  exact List.append_left_lt (List.cons_lt_cons_iff.mpr (.inl hletter))

namespace Writable

variable {t u : Instant} (ht : t.Writable) (hu : u.Writable)

include ht hu

theorem text_inj (h : t.text = u.text) : t = u :=
  Option.some.inj (ht.readable.symm.trans ((congrArg parse? h).trans hu.readable))

/-- An instant cut off is before the one it is cut off from. -/
theorem earlier_of_cutOf (h : t.CutOf u) : t.Earlier u := by
  rcases earlier_trichotomy t u with hlt | rfl | hgt
  · exact hlt
  · exact absurd rfl h.2
  · exact absurd (hu.localText_lt ht hgt) h.1.le

/-- In a document the earlier instant comes first unless it is the other cut
    off. -/
theorem text_lt_of_earlier (h : t.Earlier u) (hcut : ¬t.CutOf u) : t.text < u.text := by
  have hlt := ht.localText_lt hu h
  have hstart : ¬t.localText <+: u.localText := fun hp => hcut ⟨hp, ne_of_lt hlt⟩
  rw [String.lt_iff_toList_lt, text, text, String.toList_ofList, String.toList_ofList]
  exact append_lt_append_of_not_prefix hlt hstart _ _

/-- The order of the texts in documents. -/
theorem text_lt_iff : t.text < u.text ↔ t.Earlier u ∧ ¬t.CutOf u ∨ u.CutOf t := by
  constructor
  · intro hlt
    rcases earlier_trichotomy t u with hearlier | rfl | hlater
    · refine .inl ⟨hearlier, fun hcut => ?_⟩
      exact absurd hlt (lt_asymm (hcut.text_lt hu.fourDigit))
    · exact absurd hlt (lt_irrefl _)
    · refine .inr (Decidable.byContradiction fun hcut => ?_)
      exact absurd hlt (lt_asymm (hu.text_lt_of_earlier ht hlater hcut))
  · rintro (⟨hearlier, hcut⟩ | hcut)
    · exact ht.text_lt_of_earlier hu hearlier hcut
    · exact hcut.text_lt ht.fourDigit

/-- The texts that rows are ordered by are in the order of the instants. -/
theorem orderText_lt_of_earlier (h : t.Earlier u) : t.orderText < u.orderText := by
  have hlt := ht.localText_lt hu h
  rw [String.lt_iff_toList_lt, orderText, orderText, String.toList_ofList,
    String.toList_ofList]
  by_cases hcut : t.CutOf u
  · obtain ⟨c, rest, heq, hsign, -⟩ := hcut.exists_rest hu.fourDigit
    rw [heq, List.append_assoc]
    exact List.append_left_lt (List.cons_lt_cons_iff.mpr (.inl hsign))
  · have hstart : ¬t.localText <+: u.localText := fun hp => hcut ⟨hp, ne_of_lt hlt⟩
    exact append_lt_append_of_not_prefix hlt hstart _ _

theorem orderText_lt_iff : t.orderText < u.orderText ↔ t.Earlier u := by
  refine ⟨fun hlt => ?_, ht.orderText_lt_of_earlier hu⟩
  rcases earlier_trichotomy t u with hearlier | rfl | hlater
  · exact hearlier
  · exact absurd hlt (lt_irrefl _)
  · exact absurd hlt (lt_asymm (hu.orderText_lt_of_earlier ht hlater))

end Writable

/-! ## Within one second -/

/-- The second that an instant is in, as the instant it starts with. -/
def whole (t : Instant) : Instant :=
  ⟨t.seconds, t.nanos / 1000000000 * 1000000000⟩

theorem localText_eq_whole (t : Instant) :
    t.localText = t.whole.localText ++ fractionText (t.nanos % 1000000000) := by
  have hleap : t.nanos / 1000000000 * 1000000000 / 1000000000 = t.nanos / 1000000000 := by
    omega
  have hnone : fractionText (t.nanos / 1000000000 * 1000000000 % 1000000000) = [] := by
    rw [Nat.mul_mod_left]
    rfl
  simp only [localText, whole, hleap, hnone, List.append_nil]

theorem length_clockText {t : Instant} (hnanos : t.nanos < 2000000000)
    (hwhole : t.nanos % 1000000000 = 0) : t.clockText.length = 8 := by
  have hlength {n : Nat} (hn : n < 100) : (padded 2 n).length = 2 :=
    length_padded hn (by decide)
  have hs : (t.seconds % 86400).toNat < 86400 := by omega
  simp only [clockText, hwhole]
  generalize (t.seconds % 86400).toNat = s at hs ⊢
  have hhour : s / 3600 < 100 := by omega
  have hminute : s / 60 % 60 < 100 := by omega
  have hsecond : s % 60 + t.nanos / 1000000000 < 100 := by omega
  simp only [List.length_append, List.length_cons, hlength hhour, hlength hminute,
    hlength hsecond]
  rfl

namespace Writable

variable {t u : Instant}

/-- The texts of whole seconds are of one length. -/
theorem length_localText (h : t.Writable) (hwhole : t.nanos % 1000000000 = 0) :
    t.localText.length = 19 := by
  have hnanos := (inRange_of_parse? h.readable).1.nanos
  have hyear : (padded 4 (Date.ofDays (t.seconds / 86400)).year.toNat).length = 4 := by
    have hbounds := h.fourDigit
    simp only [FourDigit] at hbounds
    refine length_padded ?_ (by decide)
    show _ < 10000
    omega
  have hmonth : (padded 2 (Date.ofDays (t.seconds / 86400)).month).length = 2 :=
    length_padded (month_ofDays_lt _) (by decide)
  have hday : (padded 2 (Date.ofDays (t.seconds / 86400)).day).length = 2 :=
    length_padded (day_ofDays_lt _) (by decide)
  rw [h.fourDigit.localText_eq]
  simp only [List.length_append, List.length_cons, hyear, hmonth, hday,
    length_clockText hnanos hwhole]

theorem whole (h : t.Writable) : t.whole.Writable := by
  obtain ⟨hrange, haligned⟩ := inRange_of_parse? h.readable
  have hnanos := hrange.nanos
  refine ⟨parse?_text_eq_some_iff.mpr ⟨⟨hrange.low, hrange.high, ?_⟩, ?_⟩, h.fourDigit⟩
  · show t.nanos / 1000000000 * 1000000000 < 2000000000
    omega
  · refine haligned.imp (fun hlt => ?_) id
    show t.nanos / 1000000000 * 1000000000 < 1000000000
    omega

/-- An instant is in the second of the one it is cut off from. -/
theorem whole_eq_of_cutOf (ht : t.Writable) (hu : u.Writable) (h : t.CutOf u) :
    t.whole = u.whole := by
  have hstarts (t : Instant) : t.whole.localText <+: t.localText := by
    rw [localText_eq_whole t]
    exact List.prefix_append _ _
  have hlengths : t.whole.localText.length = u.whole.localText.length := by
    rw [length_localText ht.whole (Nat.mul_mod_left _ _),
      length_localText hu.whole (Nat.mul_mod_left _ _)]
  have hsame : t.whole.localText = u.whole.localText :=
    (List.prefix_of_prefix_length_le ((hstarts t).trans h.1) (hstarts u)
      hlengths.le).eq_of_length hlengths
  refine ht.whole.text_inj hu.whole ?_
  rw [text, text, hsame]

end Writable

end Instant

end LinkedContracts
