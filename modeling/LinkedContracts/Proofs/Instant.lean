import LinkedContracts.Instant
import LinkedContracts.Proofs.Json.Numbers

/-! # Instants read back

    The date of a number of days is that many days since the start of 1970.
    The text of an instant is read, if at all, as an instant with the same
    text: it need not be the same instant, as a leap second is told from the
    second after it only at the end of a minute. -/

namespace LinkedContracts

namespace Instant

open Json

/-! ## The calendar -/

/-- The days of an era that are left for the last year begun make at most a
    year. -/
theorem dayOfYear_bounds {d y : Int} (h : 0 ≤ d ∧ d < 146097)
    (hy : y = (d - d / 1460 + d / 36524 - d / 146096) / 365) :
    0 ≤ d - (365 * y + y / 4 - y / 100)
      ∧ d - (365 * y + y / 4 - y / 100) ≤ 365 := by
  -- the century has to be known before the leap days can be counted
  generalize he : d / 36524 = e at hy
  have hcentury : e = 0 ∨ e = 1 ∨ e = 2 ∨ e = 3 ∨ e = 4 := by omega
  rcases hcentury with rfl | rfl | rfl | rfl | rfl
  · have hi : y / 100 = 0 := by omega
    rw [hi]
    omega
  · have hi : y / 100 = 1 := by omega
    rw [hi]
    omega
  · have hi : y / 100 = 2 := by omega
    rw [hi]
    omega
  · have hi : y / 100 = 3 := by omega
    rw [hi]
    omega
  · omega

/-- A date by its era, the year of the era and the month, both counted from
    March, and the day of the month. -/
structure Counted (date : Date) (era year month day : Int) : Prop where
  year_eq : date.year =
    if date.month ≤ 2 then year + era * 400 + 1 else year + era * 400
  month_eq : (date.month : Int) = if month < 10 then month + 3 else month - 9
  day_eq : (date.day : Int) = day
  year_lt : 0 ≤ year ∧ year < 400
  month_lt : 0 ≤ month ∧ month < 12
  day_le : 1 ≤ day ∧ day ≤ 31

theorem counted_ofDays (days : Int) :
    ∃ era year month day, Counted (Date.ofDays days) era year month day
      ∧ era * 146097 + (year * 365 + year / 4 - year / 100
        + ((153 * month + 2) / 5 + day - 1)) - 719468 = days := by
  obtain ⟨d, hd⟩ : ∃ d, d = (days + 719468) % 146097 := ⟨_, rfl⟩
  obtain ⟨y, hy⟩ : ∃ y, y = (d - d / 1460 + d / 36524 - d / 146096) / 365 :=
    ⟨_, rfl⟩
  obtain ⟨n, hn⟩ : ∃ n, n = d - (365 * y + y / 4 - y / 100) := ⟨_, rfl⟩
  obtain ⟨m, hm⟩ : ∃ m, m = (5 * n + 2) / 153 := ⟨_, rfl⟩
  have hbounds : 0 ≤ n ∧ n ≤ 365 := hn ▸ dayOfYear_bounds (by omega) hy
  have hdate : Date.ofDays days =
      ⟨if (if m < 10 then m + 3 else m - 9) ≤ 2
          then y + (days + 719468) / 146097 * 400 + 1
          else y + (days + 719468) / 146097 * 400,
        (if m < 10 then m + 3 else m - 9).toNat,
        (n - (153 * m + 2) / 5 + 1).toNat⟩ := by
    subst hm hn hy hd
    rfl
  refine ⟨(days + 719468) / 146097, y, m, n - (153 * m + 2) / 5 + 1, ?_, by omega⟩
  rw [hdate]
  have hmonth : (0 : Int) ≤ if m < 10 then m + 3 else m - 9 := by
    split <;> omega
  refine ⟨?_, Int.toNat_of_nonneg hmonth, Int.toNat_of_nonneg (by omega),
    by omega, by omega, by omega⟩
  dsimp only
  split <;> split <;> omega

theorem toDays_ofDays (days : Int) : (Date.ofDays days).toDays = days := by
  obtain ⟨era, year, month, day, h, hdays⟩ := counted_ofDays days
  have hera : (year + era * 400) / 400 = era ∧ (year + era * 400) % 400 = year := by
    have := h.year_lt
    omega
  have hmonth := h.month_eq
  have hlt := h.month_lt
  have hday := h.day_eq
  rw [Date.toDays, h.year_eq]
  split
  next hlate =>
    have hm : ¬month < 10 := by
      intro hm
      rw [if_pos hm] at hmonth
      omega
    rw [if_neg hm] at hmonth
    rw [Int.add_sub_cancel, hera.1, hera.2]
    omega
  next hearly =>
    have hm : month < 10 := Decidable.byContradiction fun hm => by
      rw [if_neg hm] at hmonth
      omega
    rw [if_pos hm] at hmonth
    rw [hera.1, hera.2]
    omega

theorem month_ofDays_lt (days : Int) : (Date.ofDays days).month < 100 := by
  obtain ⟨_, _, month, _, h, -⟩ := counted_ofDays days
  have hmonth := h.month_eq
  have hlt := h.month_lt
  split at hmonth <;> omega

theorem day_ofDays_lt (days : Int) : (Date.ofDays days).day < 100 := by
  obtain ⟨_, _, _, day, h, -⟩ := counted_ofDays days
  have hday := h.day_eq
  have hle := h.day_le
  omega

/-! ## Numbers -/

/-- The value of digits, as it is summed up. -/
theorem foldl_digits (ds : List Char) :
    ds.foldl (fun n c => n * 10 + (c.toNat - '0'.toNat)) 0
      = Nat.ofDigitChars 10 ds 0 := by
  simp only [Nat.ofDigitChars_eq_foldl, Nat.mul_comm 10]

theorem isDigits_padded (width n : Nat) : IsDigits (padded width n) := by
  refine ⟨?_, fun c hc => ?_⟩
  · simp [padded, Nat.toDigits_ne_nil]
  · rcases List.mem_append.mp hc with hc | hc
    · rw [List.eq_of_mem_replicate hc]
      rfl
    · exact (isDigits_toDigits n).2 c hc

theorem length_padded {width n : Nat} (hn : n < Nat.pow 10 width) (hwidth : 0 < width) :
    (padded width n).length = width := by
  have hle := (Nat.length_toDigits_le_iff (b := 10) (by decide) hwidth).mpr hn
  simp only [padded, List.length_append, List.length_replicate]
  omega

theorem ofDigitChars_padded (width n : Nat) :
    Nat.ofDigitChars 10 (padded width n) 0 = n := by
  rw [padded, Nat.ofDigitChars_append, Nat.ofDigitChars_replicate_zero,
    Nat.mul_zero, Nat.ofDigitChars_ten_toDigits]

/-- Digits are read that are enough, and not too many. -/
theorem digits_append {least most : Nat} {ds rest : List Char}
    (hds : ∀ c ∈ ds, c.isDigit = true) (hleast : least ≤ ds.length)
    (hmost : ds.length ≤ most) (hrest : ds.length = most ∨ NoDigit rest) :
    digits least most (ds ++ rest)
      = some (Nat.ofDigitChars 10 ds 0, rest) := by
  have htake : ((ds ++ rest).take most).takeWhile Char.isDigit = ds := by
    rw [List.take_append, List.take_of_length_le hmost,
      List.takeWhile_append_of_pos hds]
    suffices h : (rest.take (most - ds.length)).takeWhile Char.isDigit = [] by
      rw [h, List.append_nil]
    rcases hrest with hlength | hrest
    · rw [hlength, Nat.sub_self]
      rfl
    · cases rest with
      | nil => rw [List.take_nil]; rfl
      | cons c rest =>
          cases most - ds.length with
          | zero => rfl
          | succ n =>
              rw [List.take_succ_cons, List.takeWhile_cons, hrest c rfl]
              rfl
  simp only [digits, htake, foldl_digits, List.drop_left]
  rw [if_neg (Nat.not_lt.mpr hleast)]

theorem digits_padded {least most width n : Nat} (hn : n < Nat.pow 10 width)
    (hwidth : 0 < width) (hleast : least ≤ width) (hmost : width ≤ most)
    {rest : List Char} (hrest : width = most ∨ NoDigit rest) :
    digits least most (padded width n ++ rest) = some (n, rest) := by
  have hlength := length_padded hn hwidth
  rw [digits_append (isDigits_padded width n).2 (by omega) (by omega)
    (hrest.imp_left hlength.trans), ofDigitChars_padded]

/-! ## Reading the text -/

theorem isWhiteSpace_of_isDigit {c : Char} (h : c.isDigit = true) :
    Text.isWhiteSpace c.toNat = false := by
  have hc : 48 ≤ c.toNat ∧ c.toNat ≤ 57 := by
    simpa [Char.isDigit, UInt32.le_iff_toNat_le] using h
  have hdigits : ∀ n < 10, Text.isWhiteSpace (48 + n) = false := by decide
  have h := hdigits (c.toNat - 48) (by omega)
  rwa [Nat.add_sub_cancel' hc.1] at h

/-- Nothing is skipped before a character that is no space. -/
theorem skipSpace_cons {c : Char} (hc : Text.isWhiteSpace c.toNat = false)
    (rest : List Char) : skipSpace (c :: rest) = c :: rest := by
  rw [skipSpace, List.dropWhile_cons_of_neg]
  simp [hc]

theorem skipSpace_digits {ds rest : List Char} (hds : IsDigits ds) :
    skipSpace (ds ++ rest) = ds ++ rest := by
  obtain ⟨hne, hdigits⟩ := hds
  cases ds with
  | nil => exact absurd rfl hne
  | cons d ds =>
      exact skipSpace_cons (isWhiteSpace_of_isDigit (hdigits d List.mem_cons_self)) _

/-- A separator is read where it stands. -/
theorem expect_self {c : Char} (hc : Text.isWhiteSpace c.toNat = false)
    (rest : List Char) : expect c (skipSpace (c :: rest)) = some rest := by
  rw [skipSpace_cons hc, expect, if_pos rfl]

/-- Two digits are read as a number. -/
theorem lenientField_padded {n : Nat} (hn : n < 100) (rest : List Char) :
    lenientField (padded 2 n ++ rest) = some (n, rest) := by
  rw [lenientField, skipSpace_digits (isDigits_padded 2 n)]
  exact digits_padded hn (by decide) (by decide) (Nat.le_refl 2) (.inl rfl)

theorem noDigit_minus (rest : List Char) : NoDigit ('-' :: rest) := by
  rintro c ⟨⟩
  rfl

/-- As many digits as there are before a minus are read. -/
theorem digits_signed (n : Nat) (rest : List Char) :
    let cs := padded 4 n ++ '-' :: rest
    digits 1 cs.length cs = some (n, '-' :: rest) := by
  obtain ⟨hne, hdigits⟩ := isDigits_padded 4 n
  have hlength : 1 ≤ (padded 4 n).length := List.length_pos_iff.mpr hne
  dsimp only
  rw [digits_append hdigits hlength (by simp) (.inr (noDigit_minus rest)),
    ofDigitChars_padded]

/-- A text that starts with digits does not start with another character. -/
theorem digits_ne_cons {ds rest other : List Char} {c : Char} (hds : IsDigits ds)
    (hc : c.isDigit = false) : ds ++ rest ≠ c :: other := by
  obtain ⟨hne, hdigits⟩ := hds
  cases ds with
  | nil => exact absurd rfl hne
  | cons d ds =>
      rintro ⟨⟩
      rw [hdigits c List.mem_cons_self] at hc
      cases hc

theorem lenientYear_yearText (y : Int) (rest : List Char) :
    lenientYear (yearText y ++ '-' :: rest) = some (y, '-' :: rest) := by
  rw [yearText]
  split
  next hy =>
    obtain ⟨n, rfl⟩ := Int.eq_ofNat_of_zero_le hy.1
    have hdigits := isDigits_padded 4 n
    have hread : digits 1 4 (padded 4 n ++ '-' :: rest) = some (n, '-' :: rest) :=
      digits_padded (show n < 10000 by omega) (by decide) (by decide)
        (Nat.le_refl 4) (.inl rfl)
    rw [lenientYear, Int.toNat_natCast, skipSpace_digits hdigits]
    split
    · next heq => exact absurd heq (digits_ne_cons hdigits rfl)
    · next heq => exact absurd heq (digits_ne_cons hdigits rfl)
    · rw [hread]
      rfl
  next hy =>
    split
    next hneg =>
      rw [List.cons_append, lenientYear, skipSpace_cons (by decide)]
      show (digits 1 (padded 4 y.natAbs ++ '-' :: rest).length
        (padded 4 y.natAbs ++ '-' :: rest)).map _ = _
      rw [digits_signed]
      show some (-(y.natAbs : Int), _) = _
      rw [show -(y.natAbs : Int) = y by omega]
    next hpos =>
      rw [List.cons_append, lenientYear, skipSpace_cons (by decide)]
      show (digits 1 (padded 4 y.natAbs ++ '-' :: rest).length
        (padded 4 y.natAbs ++ '-' :: rest)).map _ = _
      rw [digits_signed]
      show some ((y.natAbs : Int), _) = _
      rw [show (y.natAbs : Int) = y by omega]

section

variable {zone : List Char}

/-- Decimals of a second are read with the value they have. -/
theorem fraction_padded (width n : Nat) (hn : n < Nat.pow 10 width) (hwidth : 0 < width)
    (hmost : width ≤ 9) (hzone : NoDigit zone) :
    fraction ('.' :: padded width n ++ zone) = some (n * Nat.pow 10 (9 - width), zone) := by
  have hread : digits 1 9 (padded width n ++ zone) = some (n, zone) :=
    digits_padded hn hwidth hwidth hmost (.inr hzone)
  have hend : zone.dropWhile Char.isDigit = zone := by
    cases zone with
    | nil => rfl
    | cons c rest => simp [hzone c rfl]
  rw [List.cons_append, fraction, hread]
  simp [length_padded hn hwidth, hend]

/-- The decimals of a second are read. -/
theorem fraction_fractionText {nanos : Nat} (h : nanos < 1000000000)
    (hzone : NoDigit zone) (hnone : fraction zone = some (0, zone)) :
    fraction (fractionText nanos ++ zone) = some (nanos, zone) := by
  rw [fractionText]
  split
  next hzero =>
    rw [hzero]
    exact hnone
  split
  next hmillis =>
    have hlt : nanos / 1000000 < 1000 := by omega
    have hexact : nanos / 1000000 * 1000000 = nanos := by omega
    rw [fraction_padded 3 _ hlt (by decide) (by decide) hzone]
    exact congrArg (fun n => some (n, zone)) hexact
  split
  next hmicros =>
    have hlt : nanos / 1000 < 1000000 := by omega
    have hexact : nanos / 1000 * 1000 = nanos := by omega
    rw [fraction_padded 6 _ hlt (by decide) (by decide) hzone]
    exact congrArg (fun n => some (n, zone)) hexact
  · rw [fraction_padded 9 nanos h (by decide) (by decide) hzone]
    exact congrArg (fun n => some (n, zone)) (Nat.mul_one nanos)

end

theorem expect_minus (rest : List Char) :
    expect '-' (skipSpace ('-' :: rest)) = some rest :=
  expect_self (by decide) rest

theorem expect_colon (rest : List Char) :
    expect ':' (skipSpace (':' :: rest)) = some rest :=
  expect_self (by decide) rest

theorem separator_time (rest : List Char) : separator ('T' :: rest) = some rest := by
  rw [separator, if_pos (.inr (.inl rfl))]

/-- The parts of an instant, read as an instant. -/
def ofParts (t : Instant) : Option Instant :=
  let s := (t.seconds % 86400).toNat
  ofLocal (Date.ofDays (t.seconds / 86400)) (s / 3600) (s / 60 % 60)
    (s % 60 + t.nanos / 1000000000) (t.nanos % 1000000000) 0

/-- A text of an instant in its own time zone is read by its parts, if the
    seconds have two digits. -/
theorem parse?_localText (t : Instant)
    (hsecond : (t.seconds % 86400).toNat % 60 + t.nanos / 1000000000 < 100)
    {zone : List Char} (hdigit : NoDigit zone) (hnone : fraction zone = some (0, zone))
    (hzone : lenientZone (skipSpace zone) = some (0, [])) :
    parse? (String.ofList (t.localText ++ zone)) = t.ofParts := by
  have hfraction : fraction (fractionText (t.nanos % 1000000000) ++ zone)
      = some (t.nanos % 1000000000, zone) :=
    fraction_fractionText (Nat.mod_lt _ (by decide)) hdigit hnone
  have hs : (t.seconds % 86400).toNat < 86400 := by omega
  simp only [localText, ofParts]
  generalize (t.seconds % 86400).toNat = s at hs hsecond
  have hhour : s / 3600 < 100 := by omega
  have hminute : s / 60 % 60 < 100 := by omega
  have hend : skipSpace [] = [] := rfl
  have hread {α β : Type} (a : α) (next : α → Option β) : (some a >>= next) = next a :=
    rfl
  rw [parse?, String.toList_ofList]
  simp only [List.append_assoc, List.cons_append]
  rw [lenientYear_yearText, hread, expect_minus, hread,
    lenientField_padded (month_ofDays_lt _), hread, expect_minus, hread,
    lenientField_padded (day_ofDays_lt _), hread, separator_time, hread,
    lenientField_padded hhour, hread, expect_colon, hread,
    lenientField_padded hminute, hread, expect_colon, hread,
    lenientField_padded hsecond, hread, hfraction, hread, hzone, hread, if_pos hend]

theorem parse?_text (t : Instant)
    (hsecond : (t.seconds % 86400).toNat % 60 + t.nanos / 1000000000 < 100) :
    parse? t.text = t.ofParts :=
  parse?_localText t hsecond (by rintro c ⟨⟩; rfl) rfl rfl

/-! ## What is read -/

/-- A digit is none of the characters that mean something. -/
theorem ne_of_isDigit {c d : Char} (hc : c.isDigit = true) (hd : d.isDigit = false) :
    c ≠ d := by
  rintro rfl
  rw [hc] at hd
  cases hd

/-- No time zone starts with a digit. -/
theorem lenientZone_digit {c : Char} (hc : c.isDigit = true) (rest : List Char) :
    lenientZone (c :: rest) = none := by
  have hupper : c.toUpper ≠ 'U' := by
    have hbounds : 48 ≤ c.toNat ∧ c.toNat ≤ 57 := by
      simpa [Char.isDigit, UInt32.le_iff_toNat_le] using hc
    have hdigits : ∀ n < 10, (Char.ofNat (48 + n)).toUpper ≠ 'U' := by decide
    have h := hdigits (c.toNat - 48) (by omega)
    rwa [Nat.add_sub_cancel' hbounds.1, Char.ofNat_toNat] at h
  have hutc : ¬((c :: rest).take 3).map Char.toUpper = ['U', 'T', 'C'] := fun h =>
    hupper (List.cons.inj h).1
  rw [lenientZone, if_neg hutc, zone, if_neg, if_neg]
  · simp [ne_of_isDigit hc (d := '+') rfl, ne_of_isDigit hc (d := '-') rfl,
      ne_of_isDigit hc (d := Char.ofNat 0x2212) rfl]
  · simp [ne_of_isDigit hc (d := 'z') rfl, ne_of_isDigit hc (d := 'Z') rfl]

/-- Of a number with more than two digits the first two are read, and a digit
    is left. -/
theorem lenientField_long {n : Nat} (hn : 100 ≤ n) (rest : List Char) :
    ∃ m c after, lenientField (padded 2 n ++ rest) = some (m, c :: after)
      ∧ c.isDigit = true := by
  have hlength : ¬(padded 2 n).length ≤ 2 := by
    have hle := Nat.length_toDigits_le_iff (n := n) (b := 10) (k := 2) (by decide)
      (by decide)
    simp only [padded, List.length_append]
    omega
  obtain ⟨-, hdigits⟩ := isDigits_padded 2 n
  rw [lenientField, skipSpace_digits (isDigits_padded 2 n)]
  match padded 2 n, hlength, hdigits with
  | [], hlength, _ | [_], hlength, _ | [_, _], hlength, _ =>
      exact absurd (by simp) hlength
  | a :: b :: c :: ds, _, hdigits =>
      simp only [List.forall_mem_cons] at hdigits
      obtain ⟨ha, hb, hc, -⟩ := hdigits
      have hfirst : ∀ d ∈ [a, b], d.isDigit = true := by simp [ha, hb]
      exact ⟨_, c, ds ++ rest,
        digits_append hfirst (Nat.le_succ 1) (Nat.le_refl 2) (.inl rfl), hc⟩

/-- A text whose seconds have more than two digits is not read. -/
theorem second_of_parse?_text {t u : Instant} (hu : parse? t.text = some u) :
    (t.seconds % 86400).toNat % 60 + t.nanos / 1000000000 < 100 := by
  refine Nat.lt_of_not_le fun hsecond => ?_
  have hs : (t.seconds % 86400).toNat < 86400 := by omega
  revert hu
  simp only [text, localText]
  generalize (t.seconds % 86400).toNat = s at hs hsecond
  have hhour : s / 3600 < 100 := by omega
  have hminute : s / 60 % 60 < 100 := by omega
  have hread {α β : Type} (a : α) (next : α → Option β) : (some a >>= next) = next a :=
    rfl
  obtain ⟨m, c, after, hfield, hc⟩ := lenientField_long hsecond
    (fractionText (t.nanos % 1000000000) ++ ['Z'])
  have hfraction : fraction (c :: after) = some (0, c :: after) := by
    rw [fraction.eq_def]
    split
    · next heq => exact absurd (List.cons.inj heq).1 (ne_of_isDigit hc rfl)
    · rfl
  rw [parse?, String.toList_ofList]
  simp only [List.append_assoc, List.cons_append]
  rw [lenientYear_yearText, hread, expect_minus, hread,
    lenientField_padded (month_ofDays_lt _), hread, expect_minus, hread,
    lenientField_padded (day_ofDays_lt _), hread, separator_time, hread,
    lenientField_padded hhour, hread, expect_colon, hread,
    lenientField_padded hminute, hread, expect_colon, hread, hfield, hread, hfraction,
    hread, skipSpace_cons (isWhiteSpace_of_isDigit hc), lenientZone_digit hc]
  exact nofun

/-- An instant is read from the text that rows are ordered by as from its
    own. -/
theorem parse?_orderText {t u : Instant} (hu : parse? t.text = some u) :
    parse? t.orderText = some u := by
  have hsecond := second_of_parse?_text hu
  rw [parse?_text t hsecond] at hu
  rw [← hu]
  exact parse?_localText t hsecond (by rintro c ⟨⟩; rfl) rfl rfl

/-- Instants with the same day, minute and second have the same text. -/
theorem text_eq {t u : Instant} (hday : u.seconds / 86400 = t.seconds / 86400)
    (hminute : (u.seconds % 86400).toNat / 60 = (t.seconds % 86400).toNat / 60)
    (hsecond : (u.seconds % 86400).toNat % 60 + u.nanos / 1000000000
      = (t.seconds % 86400).toNat % 60 + t.nanos / 1000000000)
    (hnanos : u.nanos % 1000000000 = t.nanos % 1000000000) : u.text = t.text := by
  have hhour : (u.seconds % 86400).toNat / 3600 = (t.seconds % 86400).toNat / 3600 := by
    omega
  simp only [text, localText, hday, hminute, hsecond, hnanos, hhour]

/-- The text of an instant is read, if at all, as an instant with the same
    text. -/
theorem text_of_parse? {t u : Instant} (hu : parse? t.text = some u) :
    u.text = t.text := by
  rw [parse?_text t (second_of_parse?_text hu)] at hu
  obtain ⟨hlocal, h⟩ := Option.ite_none_right_eq_some.mp hu
  obtain ⟨-, h⟩ := Option.ite_none_right_eq_some.mp h
  obtain rfl := Option.some.inj h
  have hsecond : (t.seconds % 86400).toNat % 60 + t.nanos / 1000000000 ≤ 60 :=
    hlocal.2.2.2.1
  have hs : t.seconds % 86400 = ((t.seconds % 86400).toNat : Int) := by omega
  simp only [toDays_ofDays]
  generalize (t.seconds % 86400).toNat = s at hs hsecond ⊢
  have hlt : s < 86400 := by omega
  have hminute : s / 3600 * 60 + s / 60 % 60 = s / 60 := by omega
  generalize hx : s % 60 + t.nanos / 1000000000
    - (s % 60 + t.nanos / 1000000000) / 60 = x
  have hsum : t.seconds / 86400 * 86400 + ((s / 3600 : Nat) : Int) * 3600
      + ((s / 60 % 60 : Nat) : Int) * 60 + (x : Int) - 0
      = t.seconds / 86400 * 86400 + ((s / 60 * 60 + x : Nat) : Int) := by omega
  have hle : s / 60 * 60 + x < 86400 := by omega
  rw [hsum]
  generalize hy : s / 60 * 60 + x = y at hle
  have hday : (t.seconds / 86400 * 86400 + (y : Int)) / 86400 = t.seconds / 86400 := by
    omega
  have hrest : (t.seconds / 86400 * 86400 + (y : Int)) % 86400 = y := by omega
  apply text_eq
  · exact hday
  · dsimp only
    rw [hrest, hs, Int.toNat_natCast, Int.toNat_natCast]
    omega
  · dsimp only
    rw [hrest, hs, Int.toNat_natCast, Int.toNat_natCast]
    omega
  · dsimp only
    omega

end Instant

end LinkedContracts
