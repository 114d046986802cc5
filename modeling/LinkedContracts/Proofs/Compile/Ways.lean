import LinkedContracts.Plan
import LinkedContracts.Proofs.Version

/-! # Ways and the names that spell them

    The name of a join spells out the way to it.  Slashes part the steps of
    a way, and a slash that belongs to a link type is escaped, so that a name
    is read back step by step: two ways with one name are the same way. -/

namespace LinkedContracts

namespace Join

/-! ## Escaped texts -/

/-- How a character of a link type stands in a name. -/
def escapeChar (c : Char) : List Char :=
  if c = '\\' then ['\\', '\\'] else if c = '/' then ['\\', '/'] else [c]

/-- Read characters up to a slash that is not escaped; what is left. -/
def unescape : List Char → List Char × List Char
  | [] => ([], [])
  | [c] => if c = '/' then ([], [c]) else ([c], [])
  | c :: d :: rest =>
      if c = '\\' then ((unescape rest).map (d :: ·) id)
      else if c = '/' then ([], c :: d :: rest)
      else ((unescape (d :: rest)).map (c :: ·) id)

/-- What a text can be followed by in a name: nothing, or a slash. -/
def Ends (rest : List Char) : Prop := rest = [] ∨ rest.head? = some '/'

theorem unescape_ends {rest : List Char} (h : Ends rest) :
    unescape rest = ([], rest) := by
  rcases h with rfl | h
  · rfl
  · obtain ⟨tail, rfl⟩ := List.head?_eq_some_iff.mp h
    cases tail <;> rfl

/-- A character that is neither a slash nor a backslash stands for itself. -/
theorem unescape_plain {c : Char} (hc : c ≠ '\\') (hslash : c ≠ '/')
    (rest : List Char) :
    unescape (c :: rest) = ((unescape rest).map (c :: ·) id) := by
  cases rest <;> simp [unescape, hc, hslash]

theorem unescape_escapeChar (c : Char) (rest : List Char) :
    unescape (escapeChar c ++ rest) = ((unescape rest).map (c :: ·) id) := by
  rw [escapeChar]
  split
  · next hc => simp [unescape, hc]
  split
  · next hc => simp [unescape, hc]
  · next hc hslash => exact unescape_plain hc hslash rest

/-- An escaped text is read back. -/
theorem unescape_flatMap (cs rest : List Char) :
    unescape (cs.flatMap escapeChar ++ rest)
      = ((unescape rest).map (cs ++ ·) id) := by
  induction cs with
  | nil => rfl
  | cons c cs ih =>
      rw [List.flatMap_cons, List.append_assoc, unescape_escapeChar, ih]
      rfl

theorem toList_escape (linkType : String) :
    (escape linkType).toList = linkType.toList.flatMap escapeChar :=
  toList_replaceIn_replaceIn (by decide) "\\/" linkType

/-! ## Steps -/

/-- A step of a way as it is written. -/
def stepChars (step : String × Nat) : List Char :=
  step.1.toList.flatMap escapeChar ++ '.' :: Nat.toDigits 10 step.2

theorem toList_step (step : String × Nat) :
    (escape step.1 ++ "." ++ toString step.2).toList = stepChars step := by
  simp [stepChars, toList_escape, Nat.toString_eq_repr]

theorem isDigit_of_mem {n : Nat} {c : Char} (hc : c ∈ Nat.toDigits 10 n) :
    c.isDigit = true :=
  Nat.isDigit_of_mem_toDigits (by decide) (by decide) hc

/-- Digits are read as they stand. -/
theorem unescape_digits {ds rest : List Char}
    (h : ∀ c ∈ ds, c.isDigit = true) (hrest : Ends rest) :
    unescape (ds ++ rest) = (ds, rest) := by
  induction ds with
  | nil => exact unescape_ends hrest
  | cons c ds ih =>
      have hc := h c List.mem_cons_self
      have plain (d : Char) (hd : d.isDigit = false) : c ≠ d := by
        rintro rfl
        rw [hc] at hd
        cases hd
      rw [List.cons_append, unescape_plain (plain '\\' rfl) (plain '/' rfl),
        ih fun d hd => h d (List.mem_cons_of_mem _ hd)]
      rfl

/-- A step is read up to its end, with the link type unescaped. -/
theorem unescape_step (step : String × Nat) {rest : List Char}
    (hrest : Ends rest) :
    unescape (stepChars step ++ rest)
      = (step.1.toList ++ '.' :: Nat.toDigits 10 step.2, rest) := by
  rw [stepChars, List.append_assoc, unescape_flatMap, List.cons_append,
    unescape_plain (by decide) (by decide),
    unescape_digits (fun c hc => isDigit_of_mem hc) hrest]
  rfl

/-- What follows the last point is the number of a step. -/
theorem eq_of_numbered {a b : List Char} {m n : Nat}
    (h : a ++ '.' :: Nat.toDigits 10 m = b ++ '.' :: Nat.toDigits 10 n) :
    a = b ∧ m = n := by
  have cut (cs : List Char) (n : Nat) :
      splitFirst '.' (cs ++ '.' :: Nat.toDigits 10 n).reverse
        = some ((Nat.toDigits 10 n).reverse, cs.reverse) := by
    rw [List.reverse_append, List.reverse_cons, List.append_assoc]
    refine splitFirst_append (fun hpoint => ?_) cs.reverse
    cases isDigit_of_mem (List.mem_reverse.mp hpoint)
  have hcut := cut a m
  rw [h, cut b n] at hcut
  obtain ⟨hdigits, hpart⟩ := Prod.mk.inj (Option.some.inj hcut)
  refine ⟨(List.reverse_inj.mp hpart).symm, ?_⟩
  rw [← Nat.ofDigitChars_ten_toDigits (n := m), ← List.reverse_inj.mp hdigits,
    Nat.ofDigitChars_ten_toDigits]

/-- Steps that are read alike, whatever follows, are the same. -/
theorem eq_of_stepChars {s t : String × Nat} {rest more : List Char}
    (hrest : Ends rest) (hmore : Ends more)
    (h : stepChars s ++ rest = stepChars t ++ more) : s = t ∧ rest = more := by
  have hread := congrArg unescape h
  rw [unescape_step s hrest, unescape_step t hmore] at hread
  obtain ⟨hstep, hleft⟩ := Prod.mk.inj hread
  obtain ⟨htype, hnumber⟩ := eq_of_numbered hstep
  exact ⟨Prod.ext (String.toList_inj.mp htype) hnumber, hleft⟩

/-! ## Ways -/

/-- The steps of a way, each after a slash. -/
def wayChars (way : List (String × Nat)) : List Char :=
  way.flatMap fun step => '/' :: stepChars step

theorem wayChars_ends (way : List (String × Nat)) : Ends (wayChars way) := by
  cases way with
  | nil => exact .inl rfl
  | cons step rest => exact .inr rfl

theorem wayChars_injective {v w : List (String × Nat)}
    (h : wayChars v = wayChars w) : v = w := by
  induction v generalizing w with
  | nil =>
      cases w with
      | nil => rfl
      | cons t w => cases h
  | cons s v ih =>
      cases w with
      | nil => cases h
      | cons t w =>
          obtain ⟨rfl, hrest⟩ := eq_of_stepChars (wayChars_ends v)
            (wayChars_ends w) (List.cons.inj h).2
          rw [ih hrest]

theorem toList_joinWith (s : String) (rest : List String) :
    (joinWith "/" (s :: rest)).toList
      = s.toList ++ rest.flatMap fun t => '/' :: t.toList := by
  induction rest generalizing s with
  | nil => simp [joinWith]
  | cons t rest ih =>
      show (s ++ "/" ++ joinWith "/" (t :: rest)).toList = _
      rw [String.toList_append, ih]
      simp

/-- The name of a way that is not empty is its steps after a mark. -/
theorem toList_nameOf (step : String × Nat) (way : List (String × Nat)) :
    (nameOf (step :: way)).toList = "join@".toList ++ wayChars (step :: way) := by
  have steps : ((way.map fun s => escape s.1 ++ "." ++ toString s.2).flatMap
      fun t => '/' :: t.toList) = wayChars way := by
    rw [List.flatMap_map, wayChars]
    exact congrArg (List.flatMap · way) (funext fun s => by rw [toList_step])
  rw [nameOf, String.toList_append, List.map_cons, toList_joinWith, steps,
    toList_step]
  simp [wayChars]

/-- A name spells out one way only. -/
theorem nameOf_injective {v w : List (String × Nat)}
    (h : nameOf v = nameOf w) : v = w := by
  have nonempty (step : String × Nat) (way : List (String × Nat)) :
      nameOf (step :: way) ≠ nameOf [] := by
    intro heq
    have hchars := congrArg String.toList heq
    rw [toList_nameOf] at hchars
    simp [nameOf, joinWith, wayChars, stepChars] at hchars
  cases v with
  | nil =>
      cases w with
      | nil => rfl
      | cons t w => exact absurd h.symm (nonempty t w)
  | cons s v =>
      cases w with
      | nil => exact absurd h (nonempty s v)
      | cons t w =>
          have hchars := congrArg String.toList h
          rw [toList_nameOf, toList_nameOf] at hchars
          exact wayChars_injective (List.append_cancel_left hchars)

end Join

end LinkedContracts
