import LinkedContracts.Proofs.Text.Split
import LinkedContracts.Version

/-! # Versions read and ordered

    The canonical text of a version that was read is read as that version.
    Versions are totally ordered, and only equal ones compare as equal. -/

namespace LinkedContracts

/-! ## Words -/

/-- The decimal digits of a number in range spell it. -/
theorem word?_toDigits {n : Nat} (h : n < Nat.pow 2 64) :
    word? (Nat.toDigits 10 n) = some n := by
  have value : decimalValue (Nat.toDigits 10 n) = n := by
    have hn := Nat.ofDigitChars_ten_toDigits (n := n)
    simp only [Nat.ofDigitChars, Nat.mul_comm 10] at hn
    exact hn
  have digits : ∀ c ∈ Nat.toDigits 10 n, c.isDigit = true := fun c hc =>
    Nat.isDigit_of_mem_toDigits (by decide) (by decide) hc
  obtain ⟨c, cs, hcs⟩ : ∃ c cs, Nat.toDigits 10 n = c :: cs :=
    List.exists_cons_of_ne_nil Nat.toDigits_ne_nil
  rw [hcs] at value digits ⊢
  have hc : c ≠ '+' := by
    rintro rfl
    cases digits '+' List.mem_cons_self
  have hall : (c :: cs).all Char.isDigit = true := List.all_eq_true.mpr digits
  simp [word?, hc, hall, value]
  exact h

theorem lt_of_word? {cs : List Char} {n : Nat} (h : word? cs = some n) :
    n < Nat.pow 2 64 := by
  simp only [word?, Option.ite_none_left_eq_some, Option.ite_none_right_eq_some,
    Option.some.injEq] at h
  obtain ⟨-, hlt, rfl⟩ := h
  exact hlt

namespace Version

/-! ## The canonical text -/

/-- A version with a text of its own: its numbers are in range, and its
    prerelease has no plus. -/
structure Spelled (v : Version) : Prop where
  major : v.major < Nat.pow 2 64
  minor : v.minor < Nat.pow 2 64
  patch : v.patch < Nat.pow 2 64
  prerelease : '+' ∉ v.prerelease.toList

theorem initial_spelled : initial.Spelled where
  major := by decide
  minor := by decide
  patch := by decide
  prerelease := by decide

theorem numbers?_lt {parts : List (List Char)} {a b c : Nat}
    (h : numbers? parts = some (a, b, c)) :
    a < Nat.pow 2 64 ∧ b < Nat.pow 2 64 ∧ c < Nat.pow 2 64 := by
  simp only [numbers?, Option.bind_eq_bind, Option.pure_def] at h
  split at h
  · obtain ⟨x, hx, heq⟩ := Option.map_eq_some_iff.mp h
    obtain ⟨rfl, rfl, rfl⟩ : x = a ∧ 0 = b ∧ 0 = c := by simpa using heq
    exact ⟨lt_of_word? hx, by decide, by decide⟩
  · obtain ⟨x, hx, h⟩ := Option.bind_eq_some_iff.mp h
    obtain ⟨y, hy, heq⟩ := Option.bind_eq_some_iff.mp h
    obtain ⟨rfl, rfl, rfl⟩ : x = a ∧ y = b ∧ 0 = c := by simpa using heq
    exact ⟨lt_of_word? hx, lt_of_word? hy, by decide⟩
  · obtain ⟨x, hx, h⟩ := Option.bind_eq_some_iff.mp h
    obtain ⟨y, hy, h⟩ := Option.bind_eq_some_iff.mp h
    obtain ⟨z, hz, heq⟩ := Option.bind_eq_some_iff.mp h
    obtain ⟨rfl, rfl, rfl⟩ : x = a ∧ y = b ∧ z = c := by simpa using heq
    exact ⟨lt_of_word? hx, lt_of_word? hy, lt_of_word? hz⟩
  · cases h

/-- What is read is spelled. -/
theorem spelled_of_parse? {s : String} {v : Version} (h : parse? s = some v) :
    v.Spelled := by
  simp only [parse?] at h
  obtain ⟨⟨a, b, c⟩, hn, rfl⟩ := Option.map_eq_some_iff.mp h
  obtain ⟨ha, hb, hc⟩ := numbers?_lt hn
  refine ⟨ha, hb, hc, ?_⟩
  have hplus : '+' ∉ ((splitFirst '+' s.toList).getD (s.toList, [])).1 := by
    cases hs : splitFirst '+' s.toList with
    | none => exact splitFirst_eq_none_iff.mp hs
    | some parts => exact (eq_of_splitFirst hs).2
  rw [String.toList_ofList]
  generalize ((splitFirst '+' s.toList).getD (s.toList, [])).1 = rest at hplus
  cases hs : splitFirst '-' rest with
  | none => simp
  | some parts =>
      obtain ⟨core, pre⟩ := parts
      rw [(eq_of_splitFirst hs).1] at hplus
      exact fun hmem => hplus (List.mem_append_right _ (List.mem_cons_of_mem _ hmem))

/-- The characters of the numbers of a version. -/
def coreChars (v : Version) : List Char :=
  Nat.toDigits 10 v.major ++ '.' :: (Nat.toDigits 10 v.minor
    ++ '.' :: Nat.toDigits 10 v.patch)

theorem toList_text (v : Version) :
    v.text.toList = v.coreChars
      ++ (if v.prerelease.isEmpty then [] else '-' :: v.prerelease.toList)
      ++ (if v.build.isEmpty then [] else '+' :: v.build.toList) := by
  have point : (toString ".").toList = ['.'] := rfl
  simp only [text, coreChars]
  split <;> split <;> simp [*]

/-- The characters of the numbers are digits and points. -/
theorem not_mem_coreChars (v : Version) {c : Char} (hpoint : c ≠ '.')
    (hdigit : c.isDigit = false) : c ∉ v.coreChars := by
  have digits (n : Nat) : c ∉ Nat.toDigits 10 n := fun h => by
    have := Nat.isDigit_of_mem_toDigits (by decide) (by decide) h
    simp [hdigit] at this
  simp [coreChars, digits, hpoint]

/-- There is a point between the numbers, and nowhere else. -/
theorem splitAll_coreChars (v : Version) : splitAll '.' v.coreChars
    = [Nat.toDigits 10 v.major, Nat.toDigits 10 v.minor, Nat.toDigits 10 v.patch] := by
  have digits (n : Nat) : '.' ∉ Nat.toDigits 10 n := fun h => by
    have := Nat.isDigit_of_mem_toDigits (by decide) (by decide) h
    cases this
  rw [coreChars, splitAll_append (digits _), splitAll_append (digits _),
    splitAll_of_not_mem (digits _)]

/-- The numbers are read back. -/
theorem numbers?_coreChars {v : Version} (h : v.Spelled) :
    numbers? (splitAll '.' v.coreChars) = some (v.major, v.minor, v.patch) := by
  rw [splitAll_coreChars]
  simp [numbers?, word?_toDigits h.major, word?_toDigits h.minor,
    word?_toDigits h.patch]

/-- A cut that may not happen, at a separator that is not in the first
    part. -/
theorem cut_append {c : Char} {a : List Char} (ha : c ∉ a) (s : String) :
    (splitFirst c (a ++ if s.isEmpty then [] else c :: s.toList)).getD
        (a ++ (if s.isEmpty then [] else c :: s.toList), [])
      = (a, s.toList) := by
  split
  · next h =>
      obtain rfl : s = "" := by simpa using h
      rw [List.append_nil, splitFirst_eq_none_iff.mpr ha]
      rfl
  · rw [splitFirst_append ha]
    rfl

/-- There is no plus before the build. -/
theorem Spelled.not_mem_plus {v : Version} (h : v.Spelled) : '+' ∉ v.coreChars
    ++ (if v.prerelease.isEmpty then [] else '-' :: v.prerelease.toList) := by
  have hcore := not_mem_coreChars v (c := '+') (by decide) (by decide)
  have hpre := h.prerelease
  split <;> simp [hcore, hpre]

/-- The canonical text of a version is read as that version. -/
theorem parse?_text {v : Version} (h : v.Spelled) : parse? v.text = some v := by
  have hminus := not_mem_coreChars v (c := '-') (by decide) (by decide)
  simp only [parse?, toList_text, cut_append h.not_mem_plus, cut_append hminus,
    numbers?_coreChars h, Option.map_some, String.ofList_toList]

/-- The canonical text of what was read is read the same. -/
theorem parse?_text_of_parse? {s : String} {v : Version}
    (h : parse? s = some v) : parse? v.text = some v :=
  parse?_text (spelled_of_parse? h)

/-! ## Order -/

theorem cmpPrerelease_eq :
    cmpPrerelease = compareLex (compareOn String.isEmpty) (compareOn id) := by
  funext a b
  cases ha : a.isEmpty <;> cases hb : b.isEmpty <;>
    simp only [cmpPrerelease, compareLex, compareOn, ha, hb] <;> rfl

theorem cmp_eq : cmp
    = compareLex (compareOn major) (compareLex (compareOn minor)
        (compareLex (compareOn patch)
          (compareLex
            (compareLex (compareOn fun v => v.prerelease.isEmpty)
              (compareOn prerelease))
            (compareOn build)))) := by
  funext v w
  rw [cmp, cmpPrerelease_eq]
  rfl

/-- Versions are ordered. -/
instance : Std.TransCmp cmp := by
  rw [cmp_eq]
  infer_instance

theorem eq_of_cmpPrerelease {a b : String} (h : cmpPrerelease a b = .eq) :
    a = b := by
  simp only [cmpPrerelease] at h
  split at h
  · cases h
  · cases h
  · exact Std.LawfulEqCmp.eq_of_compare h

/-- Only equal versions compare as equal. -/
theorem eq_of_cmp {v w : Version} (h : cmp v w = .eq) : v = w := by
  simp only [cmp, Ordering.then_eq_eq] at h
  obtain ⟨hmajor, hminor, hpatch, hpre, hbuild⟩ := h
  cases v
  cases w
  rw [mk.injEq]
  exact ⟨Std.LawfulEqCmp.eq_of_compare hmajor, Std.LawfulEqCmp.eq_of_compare hminor,
    Std.LawfulEqCmp.eq_of_compare hpatch, eq_of_cmpPrerelease hpre,
    Std.LawfulEqCmp.eq_of_compare hbuild⟩

theorem cmp_eq_iff {v w : Version} : cmp v w = .eq ↔ v = w := by
  constructor
  · exact eq_of_cmp
  · rintro rfl
    exact Std.ReflCmp.compare_self

/-- A version without a prerelease comes after every prerelease of it, whatever
    their builds. -/
theorem cmp_release {v w : Version} (hv : v.prerelease = "") (hw : w.prerelease ≠ "")
    (h : (v.major, v.minor, v.patch) = (w.major, w.minor, w.patch)) :
    cmp v w = .gt := by
  obtain ⟨hmajor, hminor, hpatch⟩ : v.major = w.major ∧ v.minor = w.minor
      ∧ v.patch = w.patch := by simpa using h
  have hpre : cmpPrerelease v.prerelease w.prerelease = .gt := by
    have hnone : v.prerelease.isEmpty = true := by simp [hv]
    have hsome : w.prerelease.isEmpty = false := by simpa using hw
    rw [cmpPrerelease, hnone, hsome]
  rw [cmp, hmajor, hminor, hpatch, hpre]
  simp

/-- Every text that is read as a version has the canonical text of the version
    for another, and two texts have the same exactly if they are read as equal
    versions.  Versions are totally ordered, only equal ones compare as equal,
    and a version comes after all of its prereleases. -/
theorem canonical_and_ordered :
    (∀ (s : String) (v : Version), parse? s = some v → parse? v.text = some v)
      ∧ (∀ (s t : String) (v w : Version), parse? s = some v → parse? t = some w →
          (v.text = w.text ↔ v = w))
      ∧ Std.TransCmp cmp
      ∧ (∀ v w : Version, cmp v w = .eq ↔ v = w)
      ∧ ∀ v w : Version, v.prerelease = "" → w.prerelease ≠ "" →
          (v.major, v.minor, v.patch) = (w.major, w.minor, w.patch) → cmp v w = .gt := by
  refine ⟨fun s v => parse?_text_of_parse?, ?_, inferInstance, fun v w => cmp_eq_iff,
    fun v w => cmp_release⟩
  intro s t v w hv hw
  constructor
  · intro htext
    have hread := parse?_text_of_parse? hv
    rw [htext, parse?_text_of_parse? hw] at hread
    exact (Option.some.inj hread).symm
  · rintro rfl
    rfl

/-- Two spellings of a version, and a prerelease of it in which both separators
    come again. -/
theorem canonical_and_ordered_spellings :
    let v : Version := ⟨1, 2, 0, "", ""⟩
    let w : Version := ⟨1, 2, 0, "a-b", "c+d-e"⟩
    parse? "01.2-+" = some v ∧ parse? "1.2.0-a-b+c+d-e" = some w
      ∧ parse? v.text = some v ∧ parse? w.text = some w
      ∧ (v.text = w.text ↔ v = w)
      ∧ cmp v w = .gt := by
  intro v w
  have hv : parse? "01.2-+" = some v := by decide +kernel
  have hw : parse? "1.2.0-a-b+c+d-e" = some w := by decide +kernel
  obtain ⟨hread, hsame, -, -, hrelease⟩ := canonical_and_ordered
  exact ⟨hv, hw, hread _ _ hv, hread _ _ hw, hsame _ _ _ _ hv hw,
    hrelease v w rfl (by decide) rfl⟩

end Version

end LinkedContracts
