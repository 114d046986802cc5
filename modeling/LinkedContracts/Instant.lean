import LinkedContracts.Text.Class

/-! # Instants

    A point in time with nanoseconds, read and written as RFC 3339 text.

    Written text is in universal time, with the fewest of 0, 3, 6 or 9
    decimals that are exact.  Two spellings of universal time are in use:
    `Z` in documents and `+00:00` where rows are ordered by their text.

    There are two readers.  The lenient one, for documents, takes blanks
    between the parts, signed years and numbers with fewer digits; the
    strict one takes the standard's form only. -/

namespace LinkedContracts

/-- A point in time. -/
structure Instant where
  /-- Whole seconds since the start of 1970, rounded down. -/
  seconds : Int
  /-- Nanoseconds; a leap second counts on past a thousand million. -/
  nanos : Nat
deriving DecidableEq, Inhabited

namespace Instant

/-! ## The calendar -/

/-- A day of the Gregorian calendar. -/
structure Date where
  year : Int
  month : Nat
  day : Nat
deriving DecidableEq

/-- Whether a year has a leap day. -/
def isLeapYear (y : Int) : Bool :=
  y % 4 == 0 && (y % 100 != 0 || y % 400 == 0)

/-- The length of a month. -/
def daysInMonth (y : Int) (m : Nat) : Nat :=
  if m = 2 then if isLeapYear y then 29 else 28
  else if m = 4 ∨ m = 6 ∨ m = 9 ∨ m = 11 then 30
  else 31

/-- Whether a day exists and is in the range of representable dates. -/
def Date.valid (d : Date) : Bool :=
  decide (-262143 ≤ d.year ∧ d.year ≤ 262142 ∧ 1 ≤ d.month ∧ d.month ≤ 12
    ∧ 1 ≤ d.day ∧ d.day ≤ daysInMonth d.year d.month)

/-- Days since the start of 1970.  Years are counted from March, so that a
    leap day ends its year. -/
def Date.toDays (d : Date) : Int :=
  let y := if d.month ≤ 2 then d.year - 1 else d.year
  let era := y / 400
  let yearOfEra := y % 400
  let m : Int := if d.month ≤ 2 then d.month + 9 else d.month - 3
  let dayOfYear := (153 * m + 2) / 5 + d.day - 1
  let dayOfEra :=
    yearOfEra * 365 + yearOfEra / 4 - yearOfEra / 100 + dayOfYear
  era * 146097 + dayOfEra - 719468

/-- The date of a number of days since the start of 1970. -/
def Date.ofDays (days : Int) : Date :=
  let z := days + 719468
  let era := z / 146097
  let dayOfEra := z % 146097
  let yearOfEra :=
    (dayOfEra - dayOfEra / 1460 + dayOfEra / 36524 - dayOfEra / 146096) / 365
  let dayOfYear := dayOfEra - (365 * yearOfEra + yearOfEra / 4 - yearOfEra / 100)
  let mp := (5 * dayOfYear + 2) / 153
  let day := dayOfYear - (153 * mp + 2) / 5 + 1
  let month := if mp < 10 then mp + 3 else mp - 9
  let year := yearOfEra + era * 400
  ⟨if month ≤ 2 then year + 1 else year, month.toNat, day.toNat⟩

/-! ## Writing -/

/-- A number in at least `width` digits. -/
def padded (width n : Nat) : List Char :=
  let ds := Nat.toDigits 10 n
  List.replicate (width - ds.length) '0' ++ ds

/-- A year: four digits, and a sign outside the years 0 to 9999. -/
def yearText (y : Int) : List Char :=
  if 0 ≤ y ∧ y ≤ 9999 then padded 4 y.toNat
  else (if y < 0 then '-' else '+') :: padded 4 y.natAbs

/-- Decimals of a second: none, three, six or nine. -/
def fractionText (nanos : Nat) : List Char :=
  if nanos = 0 then []
  else if nanos % 1000000 = 0 then '.' :: padded 3 (nanos / 1000000)
  else if nanos % 1000 = 0 then '.' :: padded 6 (nanos / 1000)
  else '.' :: padded 9 nanos

/-- The text of an instant before the time zone. -/
def localText (t : Instant) : List Char :=
  let date := Date.ofDays (t.seconds / 86400)
  let s := (t.seconds % 86400).toNat
  let leap := t.nanos / 1000000000
  yearText date.year ++ '-' :: padded 2 date.month ++ '-' :: padded 2 date.day
    ++ 'T' :: padded 2 (s / 3600) ++ ':' :: padded 2 (s / 60 % 60)
    ++ ':' :: padded 2 (s % 60 + leap) ++ fractionText (t.nanos % 1000000000)

/-- The text of an instant in documents. -/
def text (t : Instant) : String := String.ofList (t.localText ++ ['Z'])

/-- The text rows are ordered by. -/
def orderText (t : Instant) : String :=
  String.ofList (t.localText ++ ['+', '0', '0', ':', '0', '0'])

/-! ## Reading -/

/-- Between `least` and `most` decimal digits, as many as there are. -/
def digits (least most : Nat) (cs : List Char) : Option (Nat × List Char) :=
  let ds := (cs.take most).takeWhile Char.isDigit
  if ds.length < least then none
  else some (ds.foldl (fun n c => n * 10 + (c.toNat - '0'.toNat)) 0,
    cs.drop ds.length)

/-- Leave out leading white space. -/
def skipSpace (cs : List Char) : List Char :=
  cs.dropWhile fun c => Text.isWhiteSpace c.toNat

/-- A given character. -/
def expect (c : Char) : List Char → Option (List Char)
  | d :: rest => if c = d then some rest else none
  | [] => none

/-- The nanoseconds after the point, if there is one.  Digits past the
    ninth do not count. -/
def fraction : List Char → Option (Nat × List Char)
  | '.' :: rest =>
      (digits 1 9 rest).map fun (n, r) =>
        (n * Nat.pow 10 (9 - (rest.length - r.length)), r.dropWhile Char.isDigit)
  | rest => some (0, rest)

/-- A time zone in seconds east of universal time; `colon` reads what stands
    between hours and minutes. -/
def zone (colon : List Char → Option (List Char)) :
    List Char → Option (Int × List Char)
  | [] => none
  | c :: rest =>
      if c = 'z' ∨ c = 'Z' then some (0, rest)
      else if c = '+' ∨ c = '-' ∨ c = Char.ofNat 0x2212 then do
        let (h, rest) ← (digits 2 2 rest)
        let rest ← colon rest
        let (m, rest) ← digits 2 2 rest
        if 60 ≤ m then none
        else
          let s : Int := h * 3600 + m * 60
          some (if c = '+' then s else -s, rest)
      else none

/-- The instant of a local time.  A sixtieth second is a leap second. -/
def ofLocal (date : Date) (hour minute second nanos : Nat) (east : Int) :
    Option Instant :=
  let low := Date.toDays ⟨-262143, 1, 1⟩ * 86400
  let high := Date.toDays ⟨262142, 12, 31⟩ * 86400 + 86399
  if date.valid ∧ hour < 24 ∧ minute < 60 ∧ second ≤ 60
      ∧ -86400 < east ∧ east < 86400 then
    let leap := second / 60
    let s : Int := date.toDays * 86400 + hour * 3600 + minute * 60
      + (second - leap : Nat) - east
    if low ≤ s ∧ s ≤ high then some ⟨s, nanos + leap * 1000000000⟩ else none
  else none

/-- A year in the lenient form: up to four digits, any number after a
    sign. -/
def lenientYear (cs : List Char) : Option (Int × List Char) :=
  match skipSpace cs with
  | '-' :: rest => (digits 1 rest.length rest).map fun (n, r) => (-(n : Int), r)
  | '+' :: rest => (digits 1 rest.length rest).map fun (n, r) => ((n : Int), r)
  | rest => (digits 1 4 rest).map fun (n, r) => ((n : Int), r)

/-- One or two digits in the lenient form. -/
def lenientField (cs : List Char) : Option (Nat × List Char) :=
  digits 1 2 (skipSpace cs)

/-- The separator of date and time. -/
def separator : List Char → Option (List Char)
  | c :: rest => if c = 't' ∨ c = 'T' ∨ c = ' ' then some rest else none
  | [] => none

/-- A time zone in the lenient form, which may also be `UTC`. -/
def lenientZone (cs : List Char) : Option (Int × List Char) :=
  if (cs.take 3).map Char.toUpper = ['U', 'T', 'C'] then some (0, cs.drop 3)
  else
    zone (fun r => some (r.dropWhile fun c =>
      c == ':' || Text.isWhiteSpace c.toNat)) cs

/-- Read an instant in the lenient form. -/
def parse? (text : String) : Option Instant := do
  let (year, cs) ← lenientYear text.toList
  let cs ← expect '-' (skipSpace cs)
  let (month, cs) ← lenientField cs
  let cs ← expect '-' (skipSpace cs)
  let (day, cs) ← lenientField cs
  let cs ← separator cs
  let (hour, cs) ← lenientField cs
  let cs ← expect ':' (skipSpace cs)
  let (minute, cs) ← lenientField cs
  let cs ← expect ':' (skipSpace cs)
  let (second, cs) ← lenientField cs
  let (nanos, cs) ← fraction cs
  let (east, cs) ← lenientZone (skipSpace cs)
  if skipSpace cs = [] then
    ofLocal ⟨year, month, day⟩ hour minute second nanos east
  else none

/-- Read an instant in the standard's form. -/
def parseStrict? (text : String) : Option Instant := do
  let (year, cs) ← digits 4 4 text.toList
  let cs ← expect '-' cs
  let (month, cs) ← digits 2 2 cs
  let cs ← expect '-' cs
  let (day, cs) ← digits 2 2 cs
  let cs ← separator cs
  let (hour, cs) ← digits 2 2 cs
  let cs ← expect ':' cs
  let (minute, cs) ← digits 2 2 cs
  let cs ← expect ':' cs
  let (second, cs) ← digits 2 2 cs
  let (nanos, cs) ← fraction cs
  let (east, cs) ← zone (expect ':') cs
  if cs = [] ∧ east.natAbs ≤ (23 * 60 + 59) * 60 then
    ofLocal ⟨year, month, day⟩ hour minute second nanos east
  else none

/-- Whether an instant is not after another. -/
def le (a b : Instant) : Bool :=
  a.seconds < b.seconds || (a.seconds == b.seconds && a.nanos ≤ b.nanos)

end Instant

end LinkedContracts
