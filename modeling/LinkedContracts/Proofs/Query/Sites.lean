import LinkedContracts.Proofs.Filter.Collected
import LinkedContracts.Proofs.Query.Attached
import LinkedContracts.Proofs.Query.Distinct

/-! # Where matches are found

    A site is a place in the tree of joins together with a row: the filter that
    is asked of the row, and the variants that start from it, by link type.  A
    variant leads from a site to a row, and below it there is a site again.

    The matches of a variant that belong to the row of a site are the rows that
    the variant leads to.  The names of joins tell the place: a match is named
    for the way to its variant, so that it can only have been found by the
    filter at that place.  They do not tell the row, since different rows may
    have one id; here it is used that such rows are linked to the same
    contracts. -/

namespace LinkedContracts

open Join

/-! ## Rows -/

/-- A row that some row is linked to. -/
def Returned (links : Json → String → List Json) (r : Json) : Prop :=
  ∃ row linkType, r ∈ links row linkType

/-- Returned rows of one id are linked to the same contracts.  The id is that
    of a match: empty where the row has none. -/
def SteadyLinks (links : Json → String → List Json) : Prop :=
  ∀ a b, Returned links a → Returned links b → (b.stringField? "id").isSome →
    Filter.rowId a = Filter.rowId b → ∀ linkType, links a linkType ⊆ links b linkType

/-- Links that are looked up by the id of a row. -/
def linksById (table : String → String → List Json) (row : Json) (linkType : String) :
    List Json :=
  match row.stringField? "id" with
  | some id => table id linkType
  | none => []

/-- Links that are looked up by id are steady. -/
theorem steadyLinks_byId (table : String → String → List Json) :
    SteadyLinks (linksById table) := by
  intro a b _ _ hb hid linkType
  obtain ⟨id, hb⟩ := Option.isSome_iff_exists.mp hb
  rw [Filter.rowId, Filter.rowId, hb] at hid
  rw [linksById, linksById, hb]
  cases ha : a.stringField? "id" with
  | none => exact List.nil_subset _
  | some other =>
      rw [ha] at hid
      obtain rfl : other = id := hid
      exact List.Subset.refl _

/-- The links of a store are steady. -/
theorem Store.steady_rowsLinked (s : Store) : SteadyLinks s.rowsLinked :=
  steadyLinks_byId fun id name => (s.linked id name).map Contract.toRow

/-! ## Sites -/

/-- A place in the tree of joins of a query, and a row there. -/
structure Site where
  /-- The filter that is asked of the row. -/
  filter : Filter
  joins : Dict (List Join)
  row : Json

namespace Site

/-- The joins of a link type that start from a site. -/
def variants (s : Site) (linkType : String) : List Join :=
  (Dict.find? s.joins linkType).getD []

/-- The site of a row that a join leads to. -/
def below (j : Join) (r : Json) : Site := ⟨j.filter, j.nested, r⟩

/-- A join leads from a site to a row: its link stands under no negation, and
    the row is linked, active, has an id and meets the filter of the join. -/
structure Leads (links : Json → String → List Json) (s : Site) (j : Join)
    (r : Json) : Prop where
  variant : j ∈ s.variants j.linkType
  isOpen : j.term ∈ s.filter.openLinks
  linked : r ∈ links s.row j.linkType
  active : r.isActive = true
  met : j.filter.answer links [(j.name, r)] = true
  id : (r.stringField? "id").isSome

end Site

/-- The site of a contract that a query is evaluated on. -/
def Query.site (q : Query) (c : Json) : Site := ⟨q.filter, q.joins, c⟩

/-! ## Filters that ask rows only -/

namespace Filter

theorem rowwise_ofAll (fs : List Filter) : (ofAll fs).Rowwise = AllRowwise fs :=
  ofAll_eq Rowwise AllRowwise (fun _ => rfl) (fun _ => and_true _)
    (fun _ => true_and _) rfl (fun f _ _ h => congrArg (f.Rowwise ∧ ·) h) fs

/-- A join of a link type stays when joins are added. -/
theorem mem_find?_addTo {tree : Dict (List Join)} {j k : Join} {linkType : String}
    (h : k ∈ (Dict.find? tree linkType).getD []) :
    k ∈ (Dict.find? (addTo tree j) linkType).getD [] := by
  by_cases heq : j.linkType = linkType
  · subst heq
    rw [addTo, Dict.find?_insert_self]
    exact List.mem_append_left _ h
  · rw [addTo, Dict.find?_insert_of_ne _ _ heq]
    exact h

mutual

theorem mem_find?_addJoins {k : Join} {linkType : String} :
    ∀ (f : Filter) {tree : Dict (List Join)},
    k ∈ (Dict.find? tree linkType).getD [] →
    k ∈ (Dict.find? (f.addJoins tree) linkType).getD []
  | conj fs, _, h | disj fs, _, h => mem_find?_addAllJoins fs h
  | neg f, _, h | each _ _ _ _ f, _, h => mem_find?_addJoins f h
  | linked _ _ _ _, _, h => mem_find?_addTo h
  | always, _, h | never, _, h | present _, _, h | typeIs _ _, _, h
  | equals _ _, _, h | oneOf _ _, _, h | pattern _ _, _, h | bound _ _ _, _, h
  | length _ _ _, _, h | itemCount _ _ _, _, h | fullText _ _, _, h => h

theorem mem_find?_addAllJoins {k : Join} {linkType : String} :
    ∀ (fs : List Filter) {tree : Dict (List Join)},
    k ∈ (Dict.find? tree linkType).getD [] →
    k ∈ (Dict.find? (addAllJoins fs tree) linkType).getD []
  | [], _, h => h
  | f :: rest, _, h => mem_find?_addAllJoins rest (mem_find?_addJoins f h)

end

mutual

/-- For each link under no negation there is a join of its link type. -/
theorem exists_join_addJoins {x : LinkTerm} :
    ∀ {f : Filter}, x ∈ f.openLinks → ∀ (tree : Dict (List Join)),
    ∃ j ∈ (Dict.find? (f.addJoins tree) x.linkType).getD [], j.term = x
  | conj fs, hx, tree | disj fs, hx, tree => exists_join_addAllJoins hx tree
  | linked parent linkType joined f, hx, tree => by
      obtain rfl := List.mem_singleton.mp hx
      refine ⟨⟨linkType, parent, joined, f, !(joins f).isEmpty, addJoins f []⟩, ?_, rfl⟩
      simp [addJoins, addTo]
  | neg _, hx, _ | each _ _ _ _ _, hx, _ | always, hx, _ | never, hx, _
  | present _, hx, _ | typeIs _ _, hx, _ | equals _ _, hx, _ | oneOf _ _, hx, _
  | pattern _ _, hx, _ | bound _ _ _, hx, _ | length _ _ _, hx, _
  | itemCount _ _ _, hx, _ | fullText _ _, hx, _ => nomatch hx

theorem exists_join_addAllJoins {x : LinkTerm} :
    ∀ {fs : List Filter}, x ∈ openLinksAll fs → ∀ (tree : Dict (List Join)),
    ∃ j ∈ (Dict.find? (addAllJoins fs tree) x.linkType).getD [], j.term = x
  | f :: rest, hx, tree => by
      rcases List.mem_append.mp hx with hx | hx
      · obtain ⟨j, hj, hterm⟩ := exists_join_addJoins hx tree
        exact ⟨j, mem_find?_addAllJoins rest hj, hterm⟩
      · exact exists_join_addAllJoins hx (f.addJoins tree)

end

end Filter

/-- Compiled filters ask rows only for links. -/
theorem Schema.Yields.rowwise [TextLibrary] {s : Schema} {path : ValuePath} {p q : Plan}
    {fs : List Filter} (h : Yields s path p fs q) : Filter.AllRowwise fs := by
  induction h with
  | nothing | dropped => trivial
  | append _ _ first rest =>
      rw [Filter.allRowwise_iff, List.forall_mem_append]
      exact ⟨Filter.allRowwise_iff.mp first, Filter.allRowwise_iff.mp rest⟩
  | always | never | present => exact ⟨trivial, trivial⟩
  | test hf => cases hf <;> exact ⟨trivial, trivial⟩
  | property _ ih =>
      rw [propertyFilters]
      split
      · trivial
      · exact ⟨⟨trivial, ih⟩, trivial⟩
  | member _ _ _ h _ =>
      have hnone := h.joins_eq_nil rfl
      rw [Filter.joinsAll, Filter.joinsAll, List.append_nil] at hnone
      exact ⟨hnone, trivial⟩
  | ofAll _ ih => exact ⟨(Filter.rowwise_ofAll _).mpr ih, trivial⟩
  | conj _ ih | disj _ ih => exact ⟨ih, trivial⟩
  | neg _ ih => exact ⟨ih.1, trivial⟩
  | branch _ _ ih => exact ih
  | link _ _ _ _ ih => exact ⟨ih.1, trivial⟩

/-! ## Levels -/

/-- A level of the tree of joins of a compiled query: a filter with its joins,
    below the joins `around` and at the end of a way. -/
structure Level (root : String) (around : List String) (way : List (String × Nat))
    (f : Filter) (tree : Dict (List Join)) : Prop where
  joins : tree = f.joinTree
  rowwise : f.Rowwise
  stands : TreeStands tree way
  /-- A link starts from the join around it, or else from the root. -/
  parents : ∀ x ∈ f.linksWithin around, x.2.parent = x.1.head?.getD root
  /-- The filter of a link is about the joined contract only. -/
  closed : ∀ x ∈ f.linksWithin around, ∀ links b c,
    x.2.filter.answer links ((x.2.joined, c) :: b)
      = x.2.filter.answer links [(x.2.joined, c)]

namespace Level

variable {root : String} {around : List String} {way : List (String × Nat)}
  {f : Filter} {tree : Dict (List Join)} {links : Json → String → List Json}
  {b : Bindings} {linkType : String} {i : Nat} {j : Join} {m : LinkMatch}

theorem variant (h : Level root around way f tree)
    (hj : ((Dict.find? tree linkType).getD [])[i]? = some j) :
    j.linkType = linkType ∧ j.name = nameOf (way ++ [(linkType, i)])
      ∧ TreeStands j.nested (way ++ [(linkType, i)]) := by
  obtain ⟨htype, hstands⟩ := standsAt_of_find? h.stands hj
  exact ⟨htype, standsAt_iff.mp hstands⟩

/-- A join of an open link leads to the next level. -/
theorem below (h : Level root around way f tree)
    (hj : ((Dict.find? tree linkType).getD [])[i]? = some j)
    (hopen : j.term ∈ f.openLinks) :
    Level root (j.name :: around) (way ++ [(linkType, i)]) j.filter j.nested := by
  have hmade : j.Made := by
    cases hfind : Dict.find? tree linkType with
    | none =>
        rw [hfind] at hj
        cases hj
    | some js =>
        rw [hfind] at hj
        have hwithin := within_subset (Dict.mem_of_find? hfind)
          (List.mem_of_getElem? hj) []
        rw [within_eq, h.joins] at hwithin
        exact Filter.allMade_joinTree f [] _ (hwithin List.mem_cons_self)
  have hlinks : j.filter.linksWithin (j.name :: around) ⊆ f.linksWithin around :=
    (Filter.linksWithin_of_mem around _ hopen).2
  exact ⟨hmade.nested, Filter.rowwise_of_mem h.rowwise _ hopen, (h.variant hj).2.2,
    fun x hx => h.parents x (hlinks hx), fun x hx => h.closed x (hlinks hx)⟩

/-- An open link is that of a join. -/
theorem exists_variant (h : Level root around way f tree) {x : LinkTerm}
    (hx : x ∈ f.openLinks) :
    ∃ (i : Nat) (j : Join),
      ((Dict.find? tree x.linkType).getD [])[i]? = some j ∧ j.term = x := by
  obtain ⟨j, hj, hterm⟩ := Filter.exists_join_addJoins hx []
  obtain ⟨i, hi⟩ := List.mem_iff_getElem?.mp hj
  rw [h.joins]
  exact ⟨i, j, hi, hterm⟩

/-- Joins of one name are the same. -/
theorem variant_inj (h : Level root around way f tree) {other : String} {k : Nat}
    {j' : Join} (hj : ((Dict.find? tree linkType).getD [])[i]? = some j)
    (hj' : ((Dict.find? tree other).getD [])[k]? = some j') (hname : j.name = j'.name) :
    linkType = other ∧ i = k ∧ j = j' := by
  rw [(h.variant hj).2.1, (h.variant hj').2.1] at hname
  have hstep := List.append_cancel_left (nameOf_injective hname)
  simp only [List.cons.injEq, Prod.mk.injEq, and_true] at hstep
  obtain ⟨rfl, rfl⟩ := hstep
  exact ⟨rfl, rfl, Option.some.inj (hj.symm.trans hj')⟩

/-- What is found at a level is named for a way further on. -/
theorem named (h : Level root around way f tree)
    (hm : m ∈ (f.outcome links b).found) :
    ∃ step more, m.joined = nameOf (way ++ step :: more) := by
  obtain ⟨x, hx, hfound⟩ := Filter.foundBy_of_mem around f hm
  have hterms := Filter.termsWithin_addJoins around f Dict.sorted_nil
  obtain ⟨y, hy, hterm⟩ := List.mem_map.mp (hterms.mem_iff.mpr
    (List.mem_append_right _ hx))
  obtain ⟨p, -, i, more, hname⟩ := (names_treeWithin (h.joins ▸ h.stands) around).1 y hy
  refine ⟨(p.1, i), more, ?_⟩
  rw [hfound.joined, ← hname, ← hterm]
  rfl

/-- What is found at a row was collected by a join of the level. -/
theorem collects (h : Level root around way f tree) {row : Json}
    (hrow : b.lookup (around.head?.getD root) = some row)
    (hm : m ∈ (f.outcome links b).found) :
    ∃ (linkType : String) (i : Nat) (j : Join),
      ((Dict.find? tree linkType).getD [])[i]? = some j ∧ j.term ∈ f.openLinks
      ∧ ∃ r ∈ links row linkType, r.isActive = true
        ∧ j.filter.answer links [(j.name, r)] = true
        ∧ j.term.Collects links b row r m := by
  obtain ⟨x, hx, p, r, hleads, hcollects⟩ := Filter.collects_of_mem h.rowwise hm
  have hwithin := (Filter.linksWithin_of_mem around x hx).1
  obtain rfl : p = row := by
    have hstarts := hleads.starts
    rw [h.parents _ hwithin, hrow] at hstarts
    exact (Option.some.inj hstarts).symm
  obtain ⟨i, j, hj, rfl⟩ := h.exists_variant hx
  have hmet := hleads.met
  rw [h.closed _ hwithin] at hmet
  exact ⟨_, i, j, hj, hx, r, hleads.linked, hleads.active, hmet, hcollects⟩

end Level

namespace Query

variable [TextLibrary]
variable {tables : Tables} {select : Selection} {schema : Schema}
  {options : QueryOptions} {q : Query}

end Query

/-! ## Sites that were evaluated -/

namespace Site

/-- The filter of a site was evaluated on its row, among others: what was found
    below the site, it found at this row or at one that was returned, and what it
    found at this row is there. -/
structure Traced (links : Json → String → List Json) (found : List LinkMatch)
    (root : String) (around : List String) (way : List (String × Nat)) (s : Site) :
    Prop where
  level : Level root around way s.filter s.joins
  comes : ∀ m ∈ found, ∀ step more, m.joined = nameOf (way ++ step :: more) →
    ∃ b row, b.lookup (around.head?.getD root) = some row
      ∧ (row = s.row ∨ Returned links row ∧ Returned links s.row)
      ∧ m ∈ (s.filter.outcome links b).found
  kept : ∃ b, b.lookup (around.head?.getD root) = some s.row
    ∧ ∀ m ∈ (s.filter.outcome links b).found, (m.contract.stringField? "id").isSome →
      ∃ n ∈ found, n.Alike m

variable {links : Json → String → List Json} {found : List LinkMatch}
  {root : String} {around : List String} {way : List (String × Nat)} {s : Site}
  {linkType : String} {i : Nat} {j : Join} {r : Json} {m : LinkMatch}

/-- Where a join leads from the site, all that is collected is there. -/
theorem Traced.exists_collected (h : s.Traced links found root around way)
    (hleads : s.Leads links j r) :
    ∃ b, ∀ m, j.term.Collects links b s.row r m →
      (m.contract.stringField? "id").isSome → ∃ n ∈ found, n.Alike m := by
  obtain ⟨b, hrow, hkept⟩ := h.kept
  have hwithin := (Filter.linksWithin_of_mem around _ hleads.isOpen).1
  have hterm : j.term.Leads links b s.row r :=
    ⟨by rw [h.level.parents _ hwithin, hrow], hleads.linked, hleads.active,
      by rw [h.level.closed _ hwithin]; exact hleads.met⟩
  refine ⟨b, fun m hcollects hid => ?_⟩
  obtain ⟨n, hn, hlike⟩ := Filter.exists_found_of_collects hterm hcollects hid
    hleads.isOpen
  obtain ⟨o, ho, hlike'⟩ := hkept n hn (hlike.id ▸ hid)
  exact ⟨o, ho, hlike'.trans hlike⟩

/-- A match of a join that belongs to the row is one that the join leads to. -/
theorem Traced.leads (h : s.Traced links found root around way)
    (hsteady : SteadyLinks links) (hid : (s.row.stringField? "id").isSome)
    (hj : (s.variants linkType)[i]? = some j) (hm : m ∈ found)
    (hjoined : m.joined = j.name) (hparent : m.parent = Filter.rowId s.row)
    (hmid : (m.contract.stringField? "id").isSome) :
    s.Leads links j m.contract := by
  obtain ⟨htype, hname, -⟩ := h.level.variant hj
  obtain ⟨b, row, hrow, hsame, hfound⟩ := h.comes m hm (linkType, i) []
    (hjoined.trans hname)
  obtain ⟨other, k, j', hj', hopen, r, hr, hactive, hmet, rfl | hbelow⟩ :=
    h.level.collects hrow hfound
  · obtain ⟨rfl, rfl, rfl⟩ := h.level.variant_inj hj hj' hjoined.symm
    have hlinked : r ∈ links s.row linkType := by
      rcases hsame with rfl | ⟨hreturned, hreturned'⟩
      · exact hr
      · exact hsteady _ _ hreturned hreturned' hid hparent _ hr
    subst htype
    exact ⟨List.mem_of_getElem? hj, hopen, hlinked, hactive, hmet, hmid⟩
  · -- below another join the names are longer
    obtain ⟨step, more, hlonger⟩ := (h.level.below hj' hopen).named hbelow
    rw [hjoined, hname, List.append_assoc] at hlonger
    simpa using List.append_cancel_left (nameOf_injective hlonger)

/-- A site that a join leads to was evaluated too. -/
theorem Traced.below (h : s.Traced links found root around way)
    (hj : (s.variants linkType)[i]? = some j) (hleads : s.Leads links j r) :
    (Site.below j r).Traced links found root (j.name :: around)
      (way ++ [(linkType, i)]) where
  level := h.level.below hj hleads.isOpen
  comes m hm step more hname := by
    rw [List.append_assoc] at hname
    obtain ⟨b, row, hrow, -, hfound⟩ := h.comes m hm (linkType, i) (step :: more) hname
    obtain ⟨other, k, j', hj', hopen, r', hr', -, -, hcollects⟩ :=
      h.level.collects hrow hfound
    have hway : (other, k) = (linkType, i) ∧ m ∈ (j'.filter.outcome links
        ((j'.name, r') :: b)).found := by
      rcases hcollects with rfl | hbelow
      · have hlonger := (h.level.variant hj').2.1.symm.trans hname
        simpa using List.append_cancel_left (nameOf_injective hlonger)
      · obtain ⟨step', more', hlonger⟩ := (h.level.below hj' hopen).named hbelow
        rw [hname, List.append_assoc] at hlonger
        have hsteps := List.append_cancel_left (nameOf_injective hlonger)
        exact ⟨(List.cons.inj hsteps).1.symm, hbelow⟩
    obtain ⟨heq, hbelow⟩ := hway
    obtain ⟨rfl, rfl⟩ := Prod.mk.inj heq
    obtain rfl : j = j' := Option.some.inj (hj.symm.trans hj')
    exact ⟨_, r', List.lookup_cons_self, .inr ⟨⟨_, _, hr'⟩, ⟨_, _, hleads.linked⟩⟩, hbelow⟩
  kept := by
    obtain ⟨b, hcollected⟩ := h.exists_collected hleads
    exact ⟨_, List.lookup_cons_self, fun m hm => hcollected m (.inr hm)⟩

end Site

end LinkedContracts
