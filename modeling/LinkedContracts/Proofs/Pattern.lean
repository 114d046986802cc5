import LinkedContracts.Pattern.Regex

/-! # What a pattern tells apart

    A pattern looks at characters through its sets only.  Texts that differ
    in characters that no set of the pattern tells apart either both match or
    both do not. -/

namespace LinkedContracts

namespace Regex

/-- Whether an expression may tell two characters apart.  Of the assertions
    only those of the ends of the text look at no character. -/
def tells (c d : Char) : Regex → Bool
  | empty => false
  | char set => set.mem c.toNat != set.mem d.toNat
  | look .textStart => false
  | look .textEnd => false
  | look _ => true
  | seq a b => tells c d a || tells c d b
  | alt a b => tells c d a || tells c d b
  | rep r _ _ => tells c d r

/-- Texts of one length, of whose characters an expression does not tell
    apart those that differ. -/
structure Blind (r : Regex) (text text' : Array Char) : Prop where
  size : text.size = text'.size
  alike : ∀ (p : Nat) (c d : Char),
    text[p]? = some c → text'[p]? = some d → c = d ∨ r.tells c d = false

variable {r a b : Regex} {text text' : Array Char}

theorem Blind.mono (h : r.Blind text text')
    (htells : ∀ c d, r.tells c d = false → a.tells c d = false) : a.Blind text text' :=
  ⟨h.size, fun p c d hc hd => (h.alike p c d hc hd).imp_right (htells c d)⟩

/-- At each position there are characters in both texts, or in none. -/
theorem Blind.cases (h : r.Blind text text') (p : Nat) :
    (text[p]? = none ∧ text'[p]? = none)
      ∨ ∃ c d, text[p]? = some c ∧ text'[p]? = some d ∧ (c = d ∨ r.tells c d = false) := by
  by_cases hp : p < text.size
  · have hp' : p < text'.size := h.size ▸ hp
    have hc := Array.getElem?_eq_getElem hp
    have hd := Array.getElem?_eq_getElem hp'
    exact .inr ⟨_, _, hc, hd, h.alike p _ _ hc hd⟩
  · have hp' : ¬p < text'.size := h.size ▸ hp
    exact .inl ⟨by simpa using hp, by simpa using hp'⟩

/-- An expression reaches the same positions in texts that it does not tell
    apart. -/
theorem reach_congr (r : Regex) (h : r.Blind text text') (ps : Positions) :
    reach text r ps = reach text' r ps := by
  induction r generalizing ps with
  | empty => rfl
  | char set =>
      rw [reach, reach]
      refine congrArg (List.filterMap · ps) (funext fun p => ?_)
      rcases h.cases p with ⟨hc, hd⟩ | ⟨c, d, hc, hd, rfl | htells⟩
      · rw [hc, hd]
      · rw [hc, hd]
      · have hmem : set.mem c.toNat = set.mem d.toNat := by simpa [tells] using htells
        rw [hc, hd]
        dsimp only
        rw [hmem]
  | look l =>
      have hnone (p : Nat) : text[p]?.isNone = text'[p]?.isNone := by
        rcases h.cases p with ⟨hc, hd⟩ | ⟨c, d, hc, hd, -⟩
        · rw [hc, hd]
        · rw [hc, hd]
          rfl
      refine List.filter_congr fun p _ => ?_
      cases l with
      | textStart =>
          show Option.isNone (if p = 0 then none else text[p - 1]?)
            = Option.isNone (if p = 0 then none else text'[p - 1]?)
          split
          · rfl
          · exact hnone (p - 1)
      | textEnd => exact hnone p
      | _ =>
          -- such an assertion may look at any character, so that all are the same
          have hsame (p : Nat) : text[p]? = text'[p]? := by
            rcases h.cases p with ⟨hc, hd⟩ | ⟨c, d, hc, hd, rfl | htells⟩
            · rw [hc, hd]
            · rw [hc, hd]
            · cases htells
          rw [hsame p, hsame (p - 1)]
  | seq a b iha ihb =>
      have ha : a.Blind text text' := h.mono fun c d => by simp +contextual [tells]
      have hb : b.Blind text text' := h.mono fun c d => by simp +contextual [tells]
      rw [reach, reach, iha ha, ihb hb]
  | alt a b iha ihb =>
      have ha : a.Blind text text' := h.mono fun c d => by simp +contextual [tells]
      have hb : b.Blind text text' := h.mono fun c d => by simp +contextual [tells]
      rw [reach, reach, iha ha, ihb hb]
  | rep r least most ih =>
      have hr : r.Blind text text' := h.mono fun c d => id
      have hstep : reach text r = reach text' r := funext (ih hr)
      simp only [reach, hstep, h.size]

/-- Texts that end in characters that an expression does not tell apart both
    match or both do not. -/
theorem matchesIn_append (start : List Char) {cs ds : List Char}
    (hlength : cs.length = ds.length) (h : ∀ c ∈ cs, ∀ d ∈ ds, r.tells c d = false) :
    r.matchesIn (String.ofList (start ++ cs)) = r.matchesIn (String.ofList (start ++ ds)) := by
  have hblind : r.Blind (start ++ cs).toArray (start ++ ds).toArray := by
    refine ⟨by simp [hlength], fun p c d hc hd => ?_⟩
    rw [List.getElem?_toArray] at hc hd
    by_cases hp : p < start.length
    · rw [List.getElem?_append_left hp] at hc hd
      exact .inl (Option.some.inj (hc.symm.trans hd))
    · rw [List.getElem?_append_right (Nat.not_lt.mp hp)] at hc hd
      exact .inr (h c (List.mem_of_getElem? hc) d (List.mem_of_getElem? hd))
  simp only [matchesIn, String.toList_ofList, hblind.size, reach_congr r hblind]

end Regex

end LinkedContracts
