import LinkedContracts.Proofs.Compile.Yields
import LinkedContracts.Proofs.Filter.Found
import LinkedContracts.Proofs.Schema.Columns

/-! # Contracts that filters do not tell apart

    A filter reads columns of a contract and follows its links.  Only a
    schema that compares contracts as wholes reads more.  Any other one finds
    the same of contracts that have the same columns and the same links,
    whatever fields they have besides. -/

namespace LinkedContracts

/-- Contracts with the same columns and the same linked contracts. -/
structure Alike (links : Json → String → List Json) (c d : Json) : Prop where
  columns : Schema.AgreeOn ValuePath.columns c d
  links : links c = links d

namespace Alike

variable {links : Json → String → List Json} {c d : Json} {root : String}
  {b : Bindings} {path : ValuePath}

theorem rowId (h : Alike links c d) : Filter.rowId c = Filter.rowId d := by
  have htext (x : Json) : Filter.rowId x
      = (((x.field? "id").getD .null).asString?).getD "" := by
    rw [Filter.rowId, Json.stringField?]
    cases x.field? "id" <;> rfl
  rw [htext, htext, h.columns "id" (by decide)]

/-- A path starts from what is bound, or else from a row. -/
def Starts (b : Bindings) (path : ValuePath) : Prop :=
  (b.lookup path.scope.name).isSome = true ∨ ∃ name, path.scope = .row name

/-- A path leads to what is bound, or else into a row and not to all of
    it. -/
def Fixed (b : Bindings) (path : ValuePath) : Prop :=
  (b.lookup path.scope.name).isSome = true
    ∨ ∃ name, path.scope = .row name ∧ path.keys ≠ []

theorem Starts.child (h : Starts b path) (name : String) :
    Fixed b (path.child name) :=
  h.imp_right fun ⟨scope, hscope⟩ => ⟨scope, hscope, by simp [ValuePath.child]⟩

theorem Starts.fixed (h : Starts b path)
    (hrow : path.isRow = true → (b.lookup path.scope.name).isSome = true) :
    Fixed b path := by
  rcases h with hbound | ⟨name, hscope⟩
  · exact .inl hbound
  · obtain ⟨scope, keys⟩ := path
    obtain rfl : scope = .row name := hscope
    cases keys with
    | nil => exact .inl (hrow rfl)
    | cons key rest => exact .inr ⟨name, rfl, List.cons_ne_nil key rest⟩

/-- A fixed path leads to the same value of both. -/
theorem resolve (h : Alike links c d) (hpath : Fixed b path) :
    Bindings.resolve (b ++ [(root, c)]) path
      = Bindings.resolve (b ++ [(root, d)]) path := by
  rw [Bindings.resolve, Bindings.resolve, List.lookup_append, List.lookup_append]
  rcases hpath with hbound | ⟨name, hscope, hkeys⟩
  · obtain ⟨v, hv⟩ := Option.isSome_iff_exists.mp hbound
    rw [hv]
    rfl
  · cases b.lookup path.scope.name with
    | some v => rfl
    | none =>
        obtain ⟨scope, keys⟩ := path
        obtain rfl : scope = .row name := hscope
        cases keys with
        | nil => exact absurd rfl hkeys
        | cons column rest =>
            by_cases hroot : name = root
            · simp only [Scope.name, hroot, List.lookup_cons_self, Option.none_or,
                Option.bind_some, ValuePath.resolve]
              split
              · next hcolumn => rw [h.columns column hcolumn]
              · rfl
            · have hother : (name == root) = false := beq_eq_false_iff_ne.mpr hroot
              simp [Scope.name, List.lookup_cons, hother]

end Alike

namespace Filter

variable {links : Json → String → List Json}

variable {b b' : Bindings}

/-- A test sees nothing but the value at its path. -/
theorem Tests.outcome_congr [TextLibrary] {f : Filter} {path : ValuePath} (hf : f.Tests path)
    (h : b.resolve path = b'.resolve path) :
    f.outcome links b = f.outcome links b' := by
  have test (holds : Json → Bool) : test b path holds = test b' path holds := by
    rw [Filter.test, Filter.test, h]
  cases hf <;> exact test _

theorem outcome_present_congr {path : ValuePath}
    (h : b.resolve path = b'.resolve path) :
    (present path).outcome links b = (present path).outcome links b' := by
  show test b path _ = test b' path _
  rw [test, test, h]

/-- A link sees nothing of the contract it starts from but the id. -/
theorem linkOutcome_congr {c d : Json} (h : rowId c = rowId d) {joined : String}
    {outcomes : List (Json × Outcome)} :
    linkOutcome joined c outcomes = linkOutcome joined d outcomes := by
  rw [linkOutcome, linkOutcome, h]

theorem outcomes_congr {fs : List Filter}
    (h : ∀ f ∈ fs, f.outcome links b = f.outcome links b') :
    fs.map (fun f => f.outcome links b) = fs.map fun f => f.outcome links b' :=
  List.map_congr_left h

theorem outcome_ofAll_congr {fs : List Filter}
    (h : ∀ f ∈ fs, f.outcome links b = f.outcome links b') :
    (ofAll fs).outcome links b = (ofAll fs).outcome links b' := by
  have hkept : ∀ f ∈ fs.filter fun f => !f.isAlways,
      f.outcome links b = f.outcome links b' :=
    fun f hf => h f (List.mem_filter.mp hf).1
  rw [ofAll]
  split
  · rfl
  · next f hone => exact hkept f (hone ▸ List.mem_singleton_self f)
  · rw [outcome_conj, outcome_conj, outcomes_congr hkept]

end Filter

namespace Schema

variable {links : Json → String → List Json} {c d : Json} {root : String}

/-- The filters that a schema yields find the same of contracts that are
    alike, unless the schema compares the one at hand as a whole. -/
theorem Yields.outcome_alike [TextLibrary] (hcd : Alike links c d) {s : Schema} {path : ValuePath}
    {p q : Plan} {fs : List Filter} (h : Yields s path p fs q) :
    ∀ b : Bindings, Alike.Starts b path →
      (path.isRow = true → s.Weighs →
        (b.lookup path.scope.name).isSome = true) →
      ∀ f ∈ fs, f.outcome links (b ++ [(root, c)])
        = f.outcome links (b ++ [(root, d)]) := by
  induction h with
  | nothing | dropped => exact fun _ _ _ _ hf => absurd hf List.not_mem_nil
  | append _ _ first rest =>
      intro b hstarts hwhole
      exact List.forall_mem_append.mpr ⟨first b hstarts hwhole, rest b hstarts hwhole⟩
  | always | never =>
      intro b hstarts hwhole f hf
      obtain rfl := List.mem_singleton.mp hf
      rfl
  | test htest hrow =>
      intro b hstarts hwhole f hf
      obtain rfl := List.mem_singleton.mp hf
      exact htest.outcome_congr
        (hcd.resolve (hstarts.fixed fun h => hwhole h (hrow h)))
  | present name =>
      intro b hstarts hwhole f hf
      obtain rfl := List.mem_singleton.mp hf
      exact Filter.outcome_present_congr (hcd.resolve (hstarts.child name))
  | @property _ _ path _ _ g name _ ih =>
      intro b hstarts hwhole f hf
      have hchild := hstarts.child name
      have hg := ih b (hstarts.imp_right fun ⟨scope, hscope⟩ => ⟨scope, hscope⟩)
        (fun hrow => absurd hrow (by simp [ValuePath.isRow_child])) g
        List.mem_cons_self
      rw [propertyFilters] at hf
      split at hf
      · cases hf
      obtain rfl := List.mem_singleton.mp hf
      have hpresent : ∀ x ∈ [.neg (.present (path.child name)), g],
          Filter.outcome links x (b ++ [(root, c)])
            = Filter.outcome links x (b ++ [(root, d)]) := by
        intro x hx
        simp only [List.mem_cons, List.not_mem_nil, or_false] at hx
        rcases hx with rfl | rfl
        · rw [Filter.outcome_neg, Filter.outcome_neg, Filter.answer, Filter.answer,
            Filter.outcome_present_congr (hcd.resolve hchild)]
        · exact hg
      rw [Filter.outcome_disj, Filter.outcome_disj, Filter.outcomes_congr hpresent]
  | @member _ _ path _ _ g name members quantifier hpath _ ih =>
      intro b hstarts hwhole f hf
      obtain rfl := List.mem_singleton.mp hf
      have hvalue : Bindings.resolve (b ++ [(root, c)]) path
          = Bindings.resolve (b ++ [(root, d)]) path :=
        hcd.resolve (hstarts.fixed fun h => absurd h (by simp [hpath]))
      have hmember (v : Json) : g.outcome links ((name, v) :: (b ++ [(root, c)]))
          = g.outcome links ((name, v) :: (b ++ [(root, d)])) := by
        have hbound : (((name, v) :: b).lookup name).isSome = true := by simp
        exact ih ((name, v) :: b) (.inl hbound) (fun _ _ => hbound) g
          List.mem_cons_self
      simp only [Filter.outcome_each, hvalue, hmember]
  | ofAll _ ih =>
      intro b hstarts hwhole f hf
      obtain rfl := List.mem_singleton.mp hf
      exact Filter.outcome_ofAll_congr (ih b hstarts hwhole)
  | conj _ ih =>
      intro b hstarts hwhole f hf
      obtain rfl := List.mem_singleton.mp hf
      rw [Filter.outcome_conj, Filter.outcome_conj,
        Filter.outcomes_congr (ih b hstarts hwhole)]
  | disj _ ih =>
      intro b hstarts hwhole f hf
      obtain rfl := List.mem_singleton.mp hf
      rw [Filter.outcome_disj, Filter.outcome_disj,
        Filter.outcomes_congr (ih b hstarts hwhole)]
  | neg _ ih =>
      intro b hstarts hwhole f hf
      obtain rfl := List.mem_singleton.mp hf
      rw [Filter.outcome_neg, Filter.outcome_neg, Filter.answer, Filter.answer,
        ih b hstarts hwhole _ List.mem_cons_self]
  | branch hs _ ih =>
      intro b hstarts hwhole
      exact ih b hstarts fun hrow hweighs => hwhole hrow (.branch hs hweighs)
  | @link kw s path p r f linkType hrow hs hrun _ ih =>
      intro b hstarts hwhole g hg
      obtain rfl := List.mem_singleton.mp hg
      have hjoined (v : Json) :
          f.outcome links ((p.joinName linkType, v) :: (b ++ [(root, c)]))
            = f.outcome links ((p.joinName linkType, v) :: (b ++ [(root, d)])) := by
        have hbound : (((p.joinName linkType, v) :: b).lookup
            (p.joinName linkType)).isSome = true := by simp
        exact ih ((p.joinName linkType, v) :: b) (.inl hbound) (fun _ _ => hbound)
          f List.mem_cons_self
      rw [Filter.outcome_linked, Filter.outcome_linked, List.lookup_append,
        List.lookup_append]
      simp only [hjoined]
      cases b.lookup p.scope with
      | some row => rfl
      | none =>
          by_cases hroot : p.scope = root
          · simp only [hroot, List.lookup_cons_self, Option.none_or]
            rw [hcd.links]
            exact Filter.linkOutcome_congr hcd.rowId
          · have hother : (p.scope == root) = false := beq_eq_false_iff_ne.mpr hroot
            simp [List.lookup_cons, hother]

end Schema

end LinkedContracts
