import LinkedContracts.Proofs.Compile.Tree
import LinkedContracts.Proofs.Compile.Yields

/-! # How the joins of a plan grow

    Planning adds to the joins below the join at hand one join for each link
    of the filters it yields, and nothing elsewhere.  What carries the
    induction is that the way to the join at hand and the scopes are left as
    they were, and that the count of joins tells whether a filter refers to
    any. -/

namespace LinkedContracts

namespace Plan

open Join

variable {p q r : Plan} {tree below : Dict (List Join)} {fs gs : List Filter}

/-! ## The join at hand -/

/-- The joins of a plan are a tree that has `below` below the join at
    hand. -/
structure Holds (p : Plan) (tree below : Dict (List Join)) : Prop where
  joins : p.joins = updateAt (fun _ => below) tree p.way
  leads : (below? tree p.way).isSome = true

theorem Holds.below? (h : p.Holds tree below) :
    Join.below? p.joins p.way = some below := by
  obtain ⟨old, hold⟩ := Option.isSome_iff_exists.mp h.leads
  have hend := below?_updateAt (f := fun _ => below) hold []
  rw [List.append_nil] at hend
  rw [h.joins, hend]
  rfl

/-- The join that a link makes, before its filter is planned. -/
def begun (p : Plan) (linkType : String) : Join :=
  ⟨linkType, p.scope, p.joinName linkType, .always, false, []⟩

/-- A link enters a join that stands last below the join at hand. -/
theorem way_inside (h : p.Holds tree below) (linkType : String) :
    (p.inside linkType).way = p.way ++ [lastOf below linkType] := by
  show p.way ++ [(linkType, (under p.joins p.way linkType).length)] = _
  rw [under_eq h.below?, lastOf]

theorem joins_inside (h : p.Holds tree below) (linkType : String) :
    (p.inside linkType).joins
      = updateAt (fun _ => addTo below (p.begun linkType)) tree p.way := by
  show updateUnder (fun js => js ++ [p.begun linkType]) p.joins p.way linkType = _
  rw [updateUnder_eq, h.joins, updateAt_updateAt]
  rfl

/-- Once its filter is planned, a join has what was made inside. -/
theorem joins_settled (h : p.Holds tree below) {linkType : String}
    {inner : Dict (List Join)}
    (hr : r.Holds (p.inside linkType).joins inner)
    (hway : r.way = (p.inside linkType).way) :
    r.joins = updateAt (fun _ => addTo below
      { p.begun linkType with nested := inner }) tree p.way := by
  rw [hr.joins, hway, way_inside h, updateAt_append, joins_inside h,
    updateAt_updateAt]
  exact congrArg (updateAt · tree p.way) (funext fun _ =>
    updateAt_addTo (fun _ => inner) below (p.begun linkType))

/-! ## Growth -/

/-- From one plan to another the joins of filters were made. -/
structure Grown (tree below : Dict (List Join)) (p : Plan) (fs : List Filter)
    (q : Plan) : Prop where
  scopes : q.scopes = p.scopes
  way : q.way = p.way
  holds : q.Holds tree (Filter.addAllJoins fs below)
  joinCount : q.joinCount = p.joinCount + (Filter.joinsAll fs).length
  stands : TreeStands below p.way →
    TreeStands (Filter.addAllJoins fs below) p.way
  /-- A link starts from the join around it, or else from the scope. -/
  parents : ∀ (root : String) (around : List String),
    around.head?.getD root = p.scope →
    ∀ x ∈ Filter.linksWithinAll around fs, x.2.parent = x.1.head?.getD root

namespace Grown

theorem nothing (h : p.Holds tree below) : Grown tree below p [] p :=
  ⟨rfl, rfl, h, rfl, id, fun _ _ _ => List.forall_mem_nil _⟩

theorem append (first : Grown tree below p fs q)
    (rest : Grown tree (Filter.addAllJoins fs below) q gs r) :
    Grown tree below p (fs ++ gs) r where
  scopes := rest.scopes.trans first.scopes
  way := rest.way.trans first.way
  holds := Filter.addAllJoins_append fs gs below ▸ rest.holds
  joinCount := by
    rw [rest.joinCount, first.joinCount, Filter.joinsAll_append,
      List.length_append]
    omega
  stands h := by
    rw [Filter.addAllJoins_append, ← first.way]
    exact rest.stands (first.way ▸ first.stands h)
  parents root around h := by
    rw [Filter.linksWithinAll_append, List.forall_mem_append]
    exact ⟨first.parents root around h,
      rest.parents root around (by rw [h, scope, scope, first.scopes])⟩

/-- Filters with the same links grow alike. -/
theorem congr (h : Grown tree below p fs q)
    (hjoins : Filter.addAllJoins gs below = Filter.addAllJoins fs below)
    (hlinks : ∀ around, Filter.linksWithinAll around gs
      = Filter.linksWithinAll around fs) :
    Grown tree below p gs q where
  scopes := h.scopes
  way := h.way
  holds := hjoins ▸ h.holds
  joinCount := by
    rw [Filter.joinsAll_eq [], hlinks, ← Filter.joinsAll_eq []]
    exact h.joinCount
  stands := hjoins ▸ h.stands
  parents root around hroot := hlinks around ▸ h.parents root around hroot

/-- A filter without links grows nothing. -/
theorem plain {f : Filter} (hjoins : f.addJoins below = below)
    (hlinks : ∀ around, f.linksWithin around = []) (h : p.Holds tree below) :
    Grown tree below p [f] p :=
  (nothing h).congr hjoins fun around =>
    (List.append_nil _).trans (hlinks around)

/-- A new name for members is no join. -/
theorem counted (h : Grown tree below { p with memberCount := p.memberCount + 1 }
    fs q) : Grown tree below p fs q :=
  ⟨h.scopes, h.way, h.holds, h.joinCount, h.stands, h.parents⟩

/-- A link makes a join with the joins of its filter below it. -/
theorem link (hp : p.scopes ≠ []) (h : p.Holds tree below) {linkType : String}
    {f : Filter}
    (inside : Grown (p.inside linkType).joins [] (p.inside linkType) [f] r) :
    Grown tree below p [.linked p.scope linkType (p.joinName linkType) f]
      (p.outside r linkType f) := by
  have hscopes : r.scopes = p.joinName linkType :: p.scopes := inside.scopes
  have hpop : r.pop.scopes = p.scopes := scopes_pop hscopes hp
  have hback : r.pop.joins = r.joins ∧ r.pop.way = r.way
      ∧ r.pop.joinCount = r.joinCount := by
    simp only [pop]
    split <;> exact ⟨rfl, rfl, rfl⟩
  obtain ⟨hjoins, hway, hcount⟩ := hback
  have hleft : r.pop.leave.way = p.way := by
    show r.pop.way.dropLast = p.way
    rw [hway, inside.way, way_inside h, List.dropLast_concat]
  have hmade : r.joinCount = p.joinCount + f.joins.length := by
    have hcount := inside.joinCount
    rw [Filter.joinsAll, Filter.joinsAll, List.append_nil] at hcount
    exact hcount
  have hhoisted : decide (p.joinCount < r.pop.leave.joinCount)
      = !f.joins.isEmpty := by
    show decide (p.joinCount < r.pop.joinCount) = _
    rw [hcount, hmade]
    cases f.joins <;> simp
  have hindex : (under p.joins p.way linkType).length
      = (lastOf below linkType).2 := by
    rw [under_eq h.below?, lastOf]
  have hsettled : (p.outside r linkType f).joins = updateAt (fun _ =>
      Filter.addAllJoins [.linked p.scope linkType (p.joinName linkType) f]
        below) tree p.way := by
    show updateUnder _ r.pop.joins r.pop.leave.way linkType = _
    rw [updateUnder_eq, hleft, hjoins, joins_settled h inside.holds inside.way,
      updateAt_updateAt, hhoisted, hindex]
    refine congrArg (updateAt · tree p.way) (funext fun _ => ?_)
    exact modify_addTo below
      { p.begun linkType with nested := Filter.addAllJoins [f] [] } _ rfl
  constructor
  · exact hpop
  · exact hleft
  · exact ⟨by rw [hsettled]; exact congrArg _ hleft.symm, by
      show (Join.below? tree r.pop.leave.way).isSome = true
      rw [hleft]; exact h.leads⟩
  · show r.pop.joinCount + 1 = _
    rw [hcount, hmade]
    simp [Filter.joinsAll, Filter.joins]
    omega
  · intro hstands
    refine treeStands_addTo hstands (standsAt_iff.mpr ⟨?_, ?_⟩)
    · show nameOf (p.enter linkType).way = _
      exact congrArg nameOf (way_inside h linkType)
    · rw [← way_inside h]
      exact inside.stands trivial
  · intro root around hroot x hx
    rw [Filter.linksWithinAll, Filter.linksWithinAll, List.append_nil] at hx
    rcases List.mem_cons.mp hx with rfl | hx
    · exact hroot.symm
    · refine inside.parents root (p.joinName linkType :: around) rfl x ?_
      simpa [Filter.linksWithinAll] using hx

end Grown

end Plan

namespace Schema

open Plan

/-- A property asks for the links its schema asks for. -/
theorem linksWithinAll_propertyFilters (around : List String) (path : ValuePath)
    (f : Filter) :
    Filter.linksWithinAll around (propertyFilters path f)
      = Filter.linksWithinAll around [f] := by
  simp only [propertyFilters]
  split
  · next halways => rw [Filter.eq_always halways]; rfl
  · exact List.append_nil _

variable [TextLibrary]

/-- Links are asked of whole rows only. -/
theorem Yields.joins_eq_nil {s : Schema} {path : ValuePath} {p q : Plan}
    {fs : List Filter} (h : Yields s path p fs q) (hpath : path.isRow = false) :
    Filter.joinsAll fs = [] := by
  induction h with
  | nothing | always | never | present | dropped => rfl
  | append _ _ first rest =>
      rw [Filter.joinsAll_append, first hpath, rest hpath]
      rfl
  | test hf => cases hf <;> rfl
  | property _ ih =>
      rw [Filter.joinsAll_eq [], linksWithinAll_propertyFilters,
        ← Filter.joinsAll_eq]
      exact ih (ValuePath.isRow_child _ _)
  | member _ _ _ _ ih => exact ih rfl
  | ofAll _ ih => simpa [Filter.joinsAll, Filter.joins_ofAll] using ih hpath
  | conj _ ih | disj _ ih =>
      simpa [Filter.joinsAll, Filter.joins] using ih hpath
  | neg _ ih => exact ih hpath
  | branch _ _ ih => exact ih hpath
  | link hrow =>
      rw [hrow] at hpath
      cases hpath

end Schema

end LinkedContracts
