import LinkedContracts.Proofs.Json.Rounded
import LinkedContracts.Proofs.Kernel.Patched

/-! # Which documents are told apart

    A test in a patch, a schema that asks for values and the check whether a
    patch changed anything go by equality of documents.  Documents of integers
    are told apart as far as rounding to floating point leaves them different:
    always up to `2 ^ 53`, and no further.  A patch that changes an integer
    beyond it by less than the rounding is not written. -/

namespace LinkedContracts

theorem Schema.meets_enum [TextLibrary] (links : Json → String → List Json) (place : Place)
    (values : List Json) (v : Json) :
    (Schema.node { enum := some values }).meets links place v = values.any v.equal := by
  have plain : ({ enum := some values } : Keywords Schema).plainMeets place v
      = values.any v.equal := by
    cases place <;> cases v <;> simp [Keywords.plainMeets, Keywords.scalarMeets,
      Keywords.stringMeets, Keywords.numberMeets, Place.items?]
  rw [meets, plain]
  simp [eachMeets, someMeets, propertiesMeet, allMeet, anyMeets, notMeets, linksMeet]

/-- A test passes if what it finds is equal to its value. -/
theorem Patch.applyOperation_test_iff {doc actual value : Json} {path : String}
    {ts : List String} (hts : tokens path = .ok ts) (hactual : doc.lookup? ts = some actual) :
    applyOperation doc (.test path value) = .ok doc ↔ actual.equal value = true := by
  have hrun : applyOperation doc (.test path value)
      = if actual.equal value then .ok doc else .error (.testFailed path) := by
    simp [applyOperation, hts, hactual, bind, Except.bind]
  rw [hrun]
  split
  next hequal => exact iff_of_true rfl hequal
  next hequal => exact iff_of_false nofun hequal

namespace Kernel

/-- Whether a store is what writing a patched contract leaves. -/
def WroteImage (k : Kernel) (image : Json) (after : Store) : Prop :=
  ∃ c written store, readPatched image = .ok c
    ∧ k.store.write k.supply.now .upsert c = .ok (written, store)
    ∧ SameContents after store

/-- A patch that succeeds writes what it makes of the contract, unless that is
    equal to the contract. -/
theorem written_of_patchFor [TextLibrary] {k : Kernel} {session reference : String} {mask : Schema}
    {r : Reference} {operations : List PatchOperation} {view : Json} (hk : k.Sound)
    (hmask : k.mask session = .ok mask) (href : Reference.parse reference = .ok r)
    (hne : operations ≠ [])
    (hview : ((patchFor session reference operations).run k).1 = .ok view) :
    let after := ((patchFor session reference operations).run k).2.store
    ∃ full image, k.store.find? r.slug r.version = some full
      ∧ Patch.apply full.toJson operations = .ok image
      ∧ (image.equal full.toJson = true ∧ SameContents after k.store
        ∨ image.equal full.toJson = false ∧ k.WroteImage image after) := by
  obtain ⟨p, -, hp⟩ := patchFor_ok hmask href hview
  obtain ⟨full, view, hfull, -, ⟨hnil, -⟩ | hsteps⟩ := hk.steps_of_patched hp.patched
  · exact absurd hnil hne
  obtain ⟨schema, image, -, happly, -, hnone, hread⟩ := hsteps.checked
  refine ⟨full, image, hfull, happly, ?_⟩
  cases hcontract : p.contract with
  | none => exact .inl ⟨hnone.mp hcontract, hp.unwritten hcontract⟩
  | some c =>
      have hdiffers : image.equal full.toJson = false := by
        rw [← Bool.not_eq_true, ← hnone, hcontract]
        nofun
      obtain ⟨written, store, hwrite, hsame⟩ := hp.written c hcontract
      exact .inr ⟨hdiffers, c, written, store, hread c hcontract, hwrite, hsame⟩

/-- Whether documents of a kind are told apart, wherever it is decided whether
    two of them are equal, exactly if they are not alike. -/
structure Discerned [TextLibrary] (D : Json → Prop) (alike : Json → Json → Prop) : Prop where
  /-- Documents are equal if they are alike. -/
  equal {a b : Json} : D a → D b → (a.equal b = true ↔ alike a b)
  /-- A test passes if what it finds is alike to its value. -/
  test {doc actual value : Json} {path : String} {ts : List String} :
    Patch.tokens path = .ok ts → doc.lookup? ts = some actual → D actual → D value →
      (Patch.applyOperation doc (.test path value) = .ok doc ↔ alike actual value)
  /-- What is compiled of a schema that asks for a value accepts what is alike
      to it. -/
  const {value v : Json} {path : ValuePath} {p q : Plan} {f : Filter} {b : Bindings} :
    (Schema.compile (.node { const := some value }) path).run p = (.ok f, q) →
      p.Serves path → b.resolve path = some v → D v → D value →
      ∀ links, f.answer links b = true ↔ alike v value
  /-- What is compiled of a schema that lists values accepts what is alike to
      one of them. -/
  enum {values : List Json} {v : Json} {path : ValuePath} {p q : Plan} {f : Filter}
    {b : Bindings} :
    (Schema.compile (.node { enum := some values }) path).run p = (.ok f, q) →
      p.Serves path → b.resolve path = some v → D v → (∀ value ∈ values, D value) →
      ∀ links, f.answer links b = true ↔ ∃ value ∈ values, alike v value
  /-- A patch is written unless it leaves something alike to the contract. -/
  patch {k : Kernel} {session reference : String} {mask : Schema} {r : Reference}
    {operations : List PatchOperation} {view : Json} :
    Reachable k → k.mask session = .ok mask → Reference.parse reference = .ok r →
      operations ≠ [] →
      ((patchFor session reference operations).run k).1 = .ok view →
      ∃ full image, k.store.find? r.slug r.version = some full
        ∧ Patch.apply full.toJson operations = .ok image
        ∧ (D image → D full.toJson →
          let after := ((patchFor session reference operations).run k).2.store
          alike image full.toJson ∧ SameContents after k.store
            ∨ ¬alike image full.toJson ∧ k.WroteImage image after)

/-- Whatever decides goes by equality. -/
theorem discerned_of_equal [TextLibrary] {D : Json → Prop} {alike : Json → Json → Prop}
    (h : ∀ {a b}, D a → D b → (a.equal b = true ↔ alike a b)) : Discerned D alike where
  equal := h
  test hts hactual ha hv := by
    rw [Patch.applyOperation_test_iff hts hactual, h ha hv]
  const hrun hserves hv ha hvalue links := by
    rw [Schema.faithful links _ hrun hserves hv, Schema.meets_const, h ha hvalue]
  enum hrun hserves hv ha hvalues links := by
    rw [Schema.faithful links _ hrun hserves hv, Schema.meets_enum, List.any_eq_true]
    exact exists_congr fun value => and_congr_right fun hmem => h ha (hvalues value hmem)
  patch hk hmask href hne hview := by
    obtain ⟨full, image, hfull, happly, hdecided⟩ :=
      written_of_patchFor hk.sound hmask href hne hview
    refine ⟨full, image, hfull, happly, fun hD hD' => ?_⟩
    rw [← h hD hD']
    rcases hdecided with ⟨hequal, hsame⟩ | ⟨hdiffers, hwrote⟩
    · exact .inl ⟨hequal, hsame⟩
    · exact .inr ⟨Bool.not_eq_true _ ▸ hdiffers, hwrote⟩

/-! ## Integers -/

/-- The documents of the integers around `2 ^ 53`, the first below it. -/
def aroundLimit (i : Nat) : Json := .number (.int (9007199254740991 + i))

theorem integral_aroundLimit {i : Nat} (hi : i ≤ 2) : (aroundLimit i).Integral := by
  refine Json.integral_int ⟨?_, ?_⟩ <;> omega

/-- Documents of integers are told apart if no two of them are rounded to one
    document, and only then. -/
theorem discerned_eq_iff [TextLibrary] {D : Json → Prop} (hD : ∀ j, D j → j.Integral) :
    Discerned D Eq ↔ ∀ a b, D a → D b → a.rounded = b.rounded → a = b := by
  constructor
  · intro h a b ha hb hrounded
    exact (h.equal ha hb).mp (((hD a ha).equal_iff (hD b hb)).mpr hrounded)
  · intro h
    refine discerned_of_equal fun {a b} ha hb => ?_
    rw [(hD a ha).equal_iff (hD b hb)]
    exact ⟨h a b ha hb, congrArg Json.rounded⟩

/-- No two documents of integers are rounded to one up to `2 ^ 53`, and two are
    beyond. -/
theorem rounded_inj_iff {bound : Nat} :
    (∀ a b : Json, a.Integral ∧ a.Within bound → b.Integral ∧ b.Within bound →
      a.rounded = b.rounded → a = b) ↔ bound ≤ 2 ^ 53 := by
  constructor
  · intro h
    by_contra hbound
    have hfits (i : Nat) (hi : i ≤ 2) :
        (aroundLimit i).Integral ∧ (aroundLimit i).Within bound := by
      refine ⟨integral_aroundLimit hi, Json.within_int.mpr ?_⟩
      omega
    have hsame := h _ _ (hfits 1 (by omega)) (hfits 2 (by omega)) (by decide +kernel)
    simp [aroundLimit] at hsame
  · intro hbound a b ha hb hrounded
    rwa [Json.rounded_of_within (ha.2.mono hbound),
      Json.rounded_of_within (hb.2.mono hbound)] at hrounded

/-- Documents of integers of some kind are told apart unless they are rounded to
    one document.  So all that are different are told apart exactly if no two of
    them are rounded to one, which is so if no integer in them is larger than
    `2 ^ 53`, and for no larger bound. -/
theorem discerned_integers [TextLibrary] {D : Json → Prop} (hD : ∀ j, D j → j.Integral) :
    Discerned D (fun a b => a.rounded = b.rounded)
      ∧ (Discerned D Eq ↔ ∀ a b, D a → D b → a.rounded = b.rounded → a = b)
      ∧ ∀ bound, Discerned (fun j => j.Integral ∧ j.Within bound) Eq ↔ bound ≤ 2 ^ 53 := by
  refine ⟨discerned_of_equal fun {a b} ha hb => (hD a ha).equal_iff (hD b hb),
    discerned_eq_iff hD, fun bound => ?_⟩
  rw [discerned_eq_iff fun _ hj => hj.1, rounded_inj_iff]

/-- A test for `2 ^ 53 + 1` passes where it finds `2 ^ 53`, and does not where it
    finds the integer before. -/
theorem discerned_integers_limit :
    let held (i : Nat) : Json := .object [("n", aroundLimit i)]
    let next : PatchOperation := .test "/n" (aroundLimit 2)
    Patch.applyOperation (held 1) next = .ok (held 1)
      ∧ Patch.applyOperation (held 0) next ≠ .ok (held 0) := by
  intro held next
  have hpath : Patch.tokens "/n" = .ok ["n"] := rfl
  have hfound (i : Nat) : (held i).lookup? ["n"] = some (aroundLimit i) := rfl
  have hdiscerned := (discerned_integers (D := Json.Integral) fun _ hj => hj).1
  have test (i : Nat) (hi : i ≤ 2) := hdiscerned.test hpath (hfound i)
    (integral_aroundLimit hi) (integral_aroundLimit (Nat.le_refl 2))
  constructor
  · exact (test 1 (by omega)).mpr (by decide +kernel)
  · rw [ne_eq, test 0 (by omega)]
    decide +kernel

/-- The integers `2 ^ 53` and `2 ^ 53 + 1` are not told apart: a schema that asks
    for the one accepts a contract that has the other. -/
theorem equal_past_limit :
    let contract : Json :=
      .object [("data", .object [("n", aroundLimit 2)]), ("id", .string "a")]
    let schema : Schema := .node { properties := some [("data", .node
      { properties := some [("n", .node { const := some (aroundLimit 1) })] })] }
    (aroundLimit 1).Integral ∧ (aroundLimit 2).Integral ∧ aroundLimit 1 ≠ aroundLimit 2
      ∧ (aroundLimit 1).equal (aroundLimit 2) = true
      ∧ ∃ f plan, (Schema.compileRow schema).run (Plan.start "contracts") = (.ok f, plan)
        ∧ f.answer (fun _ _ => []) [("contracts", contract)] = true := by
  intro contract schema
  refine ⟨integral_aroundLimit (by omega), integral_aroundLimit (by omega),
    by simp [aroundLimit], by decide +kernel, _, _, rfl, ?_⟩
  exact (Schema.answer_compileRow (s := schema) rfl _ contract).trans (by decide +kernel)

end Kernel

end LinkedContracts
