import LinkedContracts.Json.Reader
import LinkedContracts.Json.Writer

/-! # Number text read back

    The text of a number is read to its end, whatever ends it in a document:
    a comma, a closing bracket or brace, or the end of the text.  What is
    read is then the same as of the text alone. -/

namespace LinkedContracts

namespace Json

/-! ## Digits -/

/-- The values of digits. -/
def digitValues (ds : List Char) : List Nat :=
  ds.map fun c => c.toNat - '0'.toNat

/-- A text that does not go on with a digit. -/
def NoDigit (rest : List Char) : Prop :=
  ∀ c, rest.head? = some c → c.isDigit = false

theorem digit?_eq (c : Char) :
    digit? c = if c.isDigit then some (c.toNat - '0'.toNat) else none := by
  have h : ('0' ≤ c ∧ c ≤ '9') ↔ c.isDigit = true := by
    simp [Char.isDigit, Char.le_def]
  simp only [digit?, h]

/-- Digits are read up to the first character that is none. -/
theorem leadingDigits_append {ds rest : List Char} (hds : ∀ c ∈ ds, c.isDigit)
    (hrest : NoDigit rest) :
    leadingDigits (ds ++ rest) = (digitValues ds, rest) := by
  induction ds with
  | nil =>
      cases rest with
      | nil => rfl
      | cons c rest =>
          simp [leadingDigits, digit?_eq, hrest c rfl, digitValues]
  | cons d ds ih =>
      have hd := hds d List.mem_cons_self
      simp [leadingDigits, digit?_eq, hd, digitValues,
        ih fun c hc => hds c (List.mem_cons_of_mem _ hc)]

theorem digitValues_ne_nil {ds : List Char} (h : ds ≠ []) :
    digitValues ds ≠ [] := by
  simpa [digitValues] using h

/-- Decimal digits of a number: there are some, and nothing else. -/
def IsDigits (ds : List Char) : Prop := ds ≠ [] ∧ ∀ c ∈ ds, c.isDigit = true

theorem isDigits_toDigits (n : Nat) : IsDigits (Nat.toDigits 10 n) :=
  ⟨Nat.toDigits_ne_nil, fun _ h =>
    Nat.isDigit_of_mem_toDigits (by decide) (by decide) h⟩

/-! ## The form of numbers -/

/-- The text of an exponent, if there is one. -/
inductive ExponentText : List Char → Prop where
  | none : ExponentText []
  | some {sign : Char} {ds : List Char} (hsign : sign = '+' ∨ sign = '-')
      (hds : IsDigits ds) : ExponentText ('e' :: sign :: ds)

/-- The text after the digits before the point. -/
inductive FractionText : List Char → Prop where
  | whole {t : List Char} (ht : ExponentText t) : FractionText t
  | point {ds t : List Char} (hds : IsDigits ds) (ht : ExponentText t) :
      FractionText ('.' :: (ds ++ t))

/-- The text of a number without its sign. -/
inductive MagnitudeText : List Char → Prop where
  | digits {ds t : List Char} (hds : IsDigits ds) (ht : FractionText t) :
      MagnitudeText (ds ++ t)

/-- The text of a number. -/
inductive NumberText : List Char → Prop where
  | positive {t : List Char} (ht : MagnitudeText t) : NumberText t
  | negative {t : List Char} (ht : MagnitudeText t) : NumberText ('-' :: t)

/-! ## Reading to the end -/

/-- What comes after a value in a document: nothing, a comma, or a closing
    bracket or brace. -/
def Ends (rest : List Char) : Prop :=
  ∀ c, rest.head? = some c → c = ',' ∨ c = ']' ∨ c = '\x7d'

theorem ends_nil : Ends [] := nofun

theorem ends_comma (rest : List Char) : Ends (',' :: rest) :=
  fun _ h => .inl (Option.some.inj h).symm

theorem ends_bracket (rest : List Char) : Ends (']' :: rest) :=
  fun _ h => .inr (.inl (Option.some.inj h).symm)

theorem ends_brace (rest : List Char) : Ends ('\x7d' :: rest) :=
  fun _ h => .inr (.inr (Option.some.inj h).symm)

/-- A reader reads a text to its end, with one result whatever ends it. -/
def ReadsAll {α : Type} (read : List Char → Option (α × List Char))
    (text : List Char) (result : Option α) : Prop :=
  ∀ rest, Ends rest → read (text ++ rest) = result.map (·, rest)

theorem noDigit_of_ends {rest : List Char} (h : Ends rest) : NoDigit rest := by
  intro c hc
  rcases h c hc with rfl | rfl | rfl <;> rfl

theorem noDigit_exponent {t rest : List Char} (ht : ExponentText t)
    (h : Ends rest) : NoDigit (t ++ rest) := by
  cases ht with
  | none => exact noDigit_of_ends h
  | some hsign hds =>
      intro c hc
      obtain rfl := Option.some.inj hc
      rfl

theorem noDigit_fraction {t rest : List Char} (ht : FractionText t)
    (h : Ends rest) : NoDigit (t ++ rest) := by
  cases ht with
  | whole ht => exact noDigit_exponent ht h
  | point hds ht =>
      intro c hc
      obtain rfl := Option.some.inj hc
      rfl

/-- The exponent part is read to its end. -/
theorem readExponent_reads {t : List Char} (ht : ExponentText t)
    (negative : Bool) (d : Digits) (plain : Option Number) :
    ∃ result, ReadsAll (readExponent negative d plain) t result := by
  cases ht with
  | none =>
      refine ⟨plain, fun rest h => ?_⟩
      cases rest with
      | nil => rfl
      | cons c rest =>
          have hc : ¬(c = 'e' ∨ c = 'E') := by
            rcases h c rfl with rfl | rfl | rfl <;> decide
          simp [readExponent, hc]
  | some hsign hds =>
      rename_i sign ds
      refine ⟨withExponent negative d (sign == '-') (digitValues ds),
        fun rest h => ?_⟩
      have hread := leadingDigits_append hds.2 (noDigit_of_ends h)
      cases hv : digitValues ds with
      | nil => exact absurd hv (digitValues_ne_nil hds.1)
      | cons n ns =>
          rcases hsign with rfl | rfl <;> simp [readExponent, hread, hv]

/-- The fraction is read to its end. -/
theorem readFraction_reads {t : List Char} (ht : FractionText t)
    (negative : Bool) (d : Digits) :
    ∃ result, ReadsAll (readFraction negative d) t result := by
  cases ht with
  | whole ht =>
      obtain ⟨result, hr⟩ := readExponent_reads ht negative d (integral negative d)
      refine ⟨result, fun rest h => ?_⟩
      rw [← hr rest h]
      have hpoint : ∀ r, t ++ rest ≠ '.' :: r := by
        intro r heq
        cases ht with
        | none =>
            rcases h '.' (by rw [List.nil_append] at heq; rw [heq]; rfl)
              with h | h | h <;> cases h
        | some _ _ => cases heq
      unfold readFraction
      split
      · next r heq => exact absurd heq (hpoint r)
      · rfl
  | point hds ht =>
      rename_i ds t
      let f := (digitValues ds).foldl Digits.fraction { d with full := false }
      obtain ⟨result, hr⟩ := readExponent_reads ht negative f (scaled negative f)
      refine ⟨result, fun rest h => ?_⟩
      rw [← hr rest h]
      have hread := leadingDigits_append hds.2 (noDigit_exponent ht h)
      have hne := digitValues_ne_nil hds.1
      simp only [List.cons_append, List.append_assoc, readFraction, hread]
      cases hv : digitValues ds with
      | nil => exact absurd hv hne
      | cons n ns => simp only [f, hv]

/-- A number without its sign is read to its end. -/
theorem readMagnitude_reads {t : List Char} (ht : MagnitudeText t)
    (negative : Bool) :
    ∃ result, ReadsAll (readMagnitude negative) t result := by
  obtain ⟨hds, ht⟩ := ht
  rename_i ds t
  obtain ⟨result, hr⟩ := readFraction_reads ht negative
    ((digitValues ds).foldl Digits.whole ⟨0, 0, false⟩)
  have hne := digitValues_ne_nil hds.1
  have hread (rest : List Char) (h : Ends rest) :
      leadingDigits (ds ++ t ++ rest) = (digitValues ds, t ++ rest) := by
    rw [List.append_assoc]
    exact leadingDigits_append hds.2 (noDigit_fraction ht h)
  match hv : digitValues ds with
  | [] => exact absurd hv hne
  | 0 :: _ :: _ =>
      refine ⟨none, fun rest h => ?_⟩
      simp only [readMagnitude, hread rest h, hv, Option.map_none]
  | [n] =>
      refine ⟨result, fun rest h => ?_⟩
      rw [← hr rest h]
      simp only [readMagnitude, hread rest h, hv]
  | (n + 1) :: m :: ns =>
      refine ⟨result, fun rest h => ?_⟩
      rw [← hr rest h]
      simp only [readMagnitude, hread rest h, hv]

/-- A digit is not a minus. -/
theorem ne_minus_of_isDigit {c : Char} (h : c.isDigit = true) : c ≠ '-' := by
  rintro rfl
  cases h

/-- A number is read to its end. -/
theorem readNumber_reads {t : List Char} (ht : NumberText t) :
    ∃ result, ReadsAll readNumber t result := by
  cases ht with
  | positive ht =>
      obtain ⟨result, hr⟩ := readMagnitude_reads ht false
      refine ⟨result, fun rest h => ?_⟩
      rw [← hr rest h]
      obtain ⟨hds, ht⟩ := ht
      rename_i ds t
      obtain ⟨c, cs, rfl⟩ := List.exists_cons_of_ne_nil hds.1
      have hc := ne_minus_of_isDigit (hds.2 c List.mem_cons_self)
      simp [readNumber, hc]
  | negative ht =>
      obtain ⟨result, hr⟩ := readMagnitude_reads ht true
      exact ⟨result, fun rest h => hr rest h⟩

/-! ## The text of numbers -/

theorem isDigits_append {ds es : List Char} (hds : IsDigits ds)
    (hes : ∀ c ∈ es, c.isDigit = true) : IsDigits (ds ++ es) :=
  ⟨by simp [hds.1], fun c hc => (List.mem_append.mp hc).elim (hds.2 c) (hes c)⟩

theorem isDigit_of_mem_zeros {n : Nat} {c : Char}
    (h : c ∈ List.replicate n '0') : c.isDigit = true := by
  obtain ⟨-, rfl⟩ := List.mem_replicate.mp h
  rfl

theorem isDigits_digitText (n : Nat) : IsDigits (Binary64.digitText n) :=
  isDigits_toDigits n

/-- A number without an exponent has the form of one. -/
theorem magnitudeText_positional (d : Decimal) :
    MagnitudeText (Binary64.positional d ['.', '0']) := by
  have zero : IsDigits ['0'] := ⟨by simp, by simp⟩
  have hds := isDigits_digitText d.digits
  simp only [Binary64.positional]
  generalize Binary64.digitText d.digits = ds at hds
  split
  · exact .digits (isDigits_append hds fun c => isDigit_of_mem_zeros)
      (.point zero .none)
  · next hexp =>
      split
      · next hlt =>
          have take : IsDigits (ds.take (ds.length - (-d.exponent).toNat)) := by
            refine ⟨?_, fun c hc => hds.2 c (List.mem_of_mem_take hc)⟩
            rw [Ne, List.take_eq_nil_iff, not_or]
            exact ⟨by omega, hds.1⟩
          have drop : IsDigits (ds.drop (ds.length - (-d.exponent).toNat)) := by
            refine ⟨?_, fun c hc => hds.2 c (List.mem_of_mem_drop hc)⟩
            rw [Ne, List.drop_eq_nil_iff]
            omega
          simpa using MagnitudeText.digits take (.point drop .none)
      · have zeros : IsDigits
            (List.replicate ((-d.exponent).toNat - ds.length) '0' ++ ds) :=
          ⟨by simp [hds.1], fun c hc =>
            (List.mem_append.mp hc).elim isDigit_of_mem_zeros (hds.2 c)⟩
        simpa using MagnitudeText.digits zero (.point zeros .none)

/-- A number with an exponent has the form of one. -/
theorem magnitudeText_scientific (d : Decimal) :
    MagnitudeText (Binary64.scientific d) := by
  have hds := isDigits_digitText d.digits
  have exponent : ExponentText
      ('e' :: (if d.leading < 0 then '-' else '+')
        :: Binary64.digitText d.leading.natAbs) :=
    .some (by split <;> simp) (isDigits_digitText _)
  simp only [Binary64.scientific]
  generalize Binary64.digitText d.digits = ds at hds
  split
  · exact absurd rfl hds.1
  · exact .digits hds (.whole exponent)
  · next c rest hne =>
      have first : IsDigits [c] := ⟨by simp, by simpa using hds.2 c (by simp)⟩
      have others : IsDigits rest :=
        ⟨fun hnil => hne hnil, fun d hd => hds.2 d (List.mem_cons_of_mem _ hd)⟩
      simpa using MagnitudeText.digits first (.point others exponent)

/-- The text of a floating-point value has the form of a number. -/
theorem numberText_double (x : Binary64) : NumberText x.text := by
  have body : MagnitudeText (if x.rank = 0 then ['0', '.', '0']
      else if -5 ≤ x.shortest.leading ∧ x.shortest.leading < 16 then
        Binary64.positional x.shortest ['.', '0']
      else Binary64.scientific x.shortest) := by
    split
    · have zero : IsDigits ['0'] := ⟨by simp, by simp⟩
      exact .digits zero (.point zero .none)
    · split
      · exact magnitudeText_positional _
      · exact magnitudeText_scientific _
  rw [Binary64.text]
  split
  · exact .negative body
  · exact .positive body

/-- The text of a number has the form of one. -/
theorem numberText_form (n : Number) : NumberText (numberText n) := by
  have digits (m : Nat) : MagnitudeText (Nat.toDigits 10 m) := by
    simpa using MagnitudeText.digits (isDigits_toDigits m) (.whole .none)
  cases n with
  | int i =>
      simp only [numberText, intText]
      split
      · exact .negative (digits _)
      · exact .positive (digits _)
  | double x => exact numberText_double x

end Json

/-! ## What is read back -/

/-- The number that is read back from the text of a number, if one is. -/
def Number.retold (n : Number) : Option Number :=
  (Json.readNumber (Json.numberText n)).map (·.1)

/-- The text of a number is read to its end. -/
theorem Json.readNumber_numberText (n : Number) :
    ReadsAll readNumber (numberText n) n.retold := by
  obtain ⟨result, hr⟩ := readNumber_reads (numberText_form n)
  have h : n.retold = result := by
    have hnil := hr [] ends_nil
    rw [List.append_nil] at hnil
    rw [Number.retold, hnil]
    cases result <;> rfl
  rw [h]
  exact hr

end LinkedContracts
