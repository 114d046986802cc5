import LinkedContracts.Proofs.Compile.Grown
import LinkedContracts.Proofs.Compile.Meaning

/-! # Where links come from

    A schema asks links through its keyword for them and through its
    branches.  Each link of a compiled filter, at whatever depth, was compiled
    from a schema that is asked there, so that its filter holds of a linked
    contract exactly when that schema is met. -/

namespace LinkedContracts

namespace Schema

/-- A schema asks another one of the contracts linked under a link type. -/
inductive Asks : Schema → String → Schema → Prop where
  | link {kw : Keywords Schema} {linkType : String} {s : Schema}
      (hs : (linkType, s) ∈ kw.links.getD []) : Asks (.node kw) linkType s
  | branch {kw : Keywords Schema} {s t : Schema} {linkType : String}
      (hs : s ∈ kw.branches) (h : Asks s linkType t) :
      Asks (.node kw) linkType t

theorem not_asks_leaf {kw : Keywords Schema} (hlinks : kw.links = none)
    (hleaf : kw.branches = []) (linkType : String) (t : Schema) :
    ¬Asks (.node kw) linkType t := by
  intro h
  cases h with
  | link hs => simp [hlinks] at hs
  | branch hs _ => simp [hleaf] at hs

/-- A schema asks another one of the contracts linked under a link type to
    the contract or to one of those it asks about. -/
inductive Reaches : Schema → String → Schema → Prop where
  | direct {s t : Schema} {linkType : String} (h : Asks s linkType t) :
      Reaches s linkType t
  | further {s t u : Schema} {linkType other : String} (h : Asks s linkType t)
      (hbelow : Reaches t other u) : Reaches s other u

theorem Reaches.branch {kw : Keywords Schema} {s t : Schema} {linkType : String}
    (hs : s ∈ kw.branches) (h : Reaches s linkType t) :
    Reaches (.node kw) linkType t := by
  cases h with
  | direct h => exact .direct (.branch hs h)
  | further h hbelow => exact .further (.branch hs h) hbelow

variable [TextLibrary]

/-- What a schema asks of the linked contracts of a link compiled from it. -/
structure Origin (s : Schema) (x : LinkTerm) (t : Schema) : Prop where
  reaches : Reaches s x.linkType t
  compiled : ∃ p q, p.Serves (.row x.joined)
    ∧ (compile t (.row x.joined)).run p = (.ok x.filter, q)

/-- Each link of the filters that a schema yields was asked for. -/
theorem Yields.origin {s : Schema} {path : ValuePath} {p q : Plan}
    {fs : List Filter} (h : Yields s path p fs q) :
    ∀ {around : List String}, ∀ x ∈ Filter.linksWithinAll around fs,
      ∃ t, Origin s x.2 t := by
  induction h with
  | nothing | always | never | present | dropped =>
      exact fun {_} => List.forall_mem_nil _
  | append _ _ first rest =>
      intro around
      rw [Filter.linksWithinAll_append, List.forall_mem_append]
      exact ⟨first, rest⟩
  | test hf => cases hf <;> exact fun {_} => List.forall_mem_nil _
  | property h _ =>
      intro around
      rw [linksWithinAll_propertyFilters, Filter.linksWithinAll_eq_nil
        (h.joins_eq_nil (ValuePath.isRow_child _ _))]
      exact List.forall_mem_nil _
  | member _ _ _ h _ =>
      intro around x hx
      have hnone : Filter.linksWithinAll around [_] = [] :=
        Filter.linksWithinAll_eq_nil (h.joins_eq_nil rfl)
      exact absurd (hnone ▸ hx) List.not_mem_nil
  | ofAll _ ih =>
      intro around
      rw [Filter.linksWithinAll, Filter.linksWithin_ofAll,
        Filter.linksWithinAll, List.append_nil]
      exact ih
  | conj _ ih | disj _ ih =>
      intro around x hx
      exact ih x (by simpa [Filter.linksWithinAll, Filter.linksWithin] using hx)
  | neg _ ih => exact ih
  | branch hs _ ih =>
      intro around x hx
      obtain ⟨t, hreaches, hcompiled⟩ := ih x hx
      exact ⟨t, hreaches.branch hs, hcompiled⟩
  | link _ hs hrun _ ih =>
      intro around x hx
      rw [Filter.linksWithinAll, Filter.linksWithinAll, List.append_nil] at hx
      rcases List.mem_cons.mp hx with rfl | hx
      · exact ⟨_, .direct (.link hs), _, _, Plan.Serves.inside _ _, hrun⟩
      · obtain ⟨t, hreaches, hcompiled⟩ :=
          ih x (by simpa [Filter.linksWithinAll] using hx)
        exact ⟨t, .further (.link hs) hreaches, hcompiled⟩

/-- The filter of a link holds of a linked contract that meets the schema
    asked of it. -/
theorem Origin.answer {s t : Schema} {x : LinkTerm} (h : Origin s x t)
    (links : Json → String → List Json) (b : Bindings) (c : Json) :
    x.filter.answer links ((x.joined, c) :: b) = t.meets links .contract c := by
  obtain ⟨p, q, hserves, hrun⟩ := h.compiled
  exact faithful links t hrun hserves (Bindings.resolve_row x.joined c b)

end Schema

end LinkedContracts
