import LinkedContracts.Proofs.Query.Joins

/-! # Names that no two joins share

    Each join of a query stands at the end of a way through links, and both
    of its tables are named for the way: the name of a join reads back as its
    way, and the name of its links table as the name of the join.  Since a
    tree has one join at each place, no two tables that are joined share a
    name. -/

namespace LinkedContracts

namespace Join

variable {tree : Dict (List Join)} {way : List (String × Nat)}

/-! ## Names of links tables -/

/-- The joins of a list stand at their numbers. -/
theorem standsAt_of_getElem? {js : List Join} {j : Join} {linkType : String} {n i : Nat}
    (h : ListStands js way linkType n) (hj : js[i]? = some j) :
    j.linkType = linkType ∧ j.StandsAt (way ++ [(linkType, n + i)]) := by
  induction js generalizing n i with
  | nil => cases hj
  | cons k rest ih =>
      obtain ⟨hlink, hstands, hrest⟩ := h
      cases i with
      | zero =>
          obtain rfl := Option.some.inj hj
          exact ⟨hlink, hstands⟩
      | succ i =>
          have hfurther := ih hrest hj
          rwa [Nat.add_assoc, Nat.add_comm 1 i] at hfurther

/-- The joins of a tree stand at their link types and numbers. -/
theorem standsAt_of_find? (h : TreeStands tree way) {linkType : String} {i : Nat}
    {j : Join} (hj : ((Dict.find? tree linkType).getD [])[i]? = some j) :
    j.linkType = linkType ∧ j.StandsAt (way ++ [(linkType, i)]) := by
  cases hfind : Dict.find? tree linkType with
  | none =>
      rw [hfind] at hj
      cases hj
  | some js =>
      rw [hfind] at hj
      have hlist := (treeStands_iff.mp h).2 _ (Dict.mem_of_find? hfind)
      have hstands := standsAt_of_getElem? hlist hj
      rwa [Nat.zero_add] at hstands

/-- What is below a join of a tree is further on in the tree. -/
theorem exists_under_of_nested {linkType : String} {i : Nat} {k j : Join}
    (hk : ((Dict.find? tree linkType).getD [])[i]? = some k)
    (hj : ∃ (more : List (String × Nat)) (m : Nat),
      (under k.nested more j.linkType)[m]? = some j) :
    ∃ (more : List (String × Nat)) (m : Nat),
      (under tree more j.linkType)[m]? = some j := by
  obtain ⟨more, m, hj⟩ := hj
  refine ⟨(linkType, i) :: more, m, ?_⟩
  rw [under, hk]
  exact hj

mutual

/-- A way leads to each join below a join. -/
theorem exists_under_of_mem_within : ∀ {j : Join} {way : List (String × Nat)},
    j.StandsAt way → ∀ {around : List String}, ∀ x ∈ within around j,
      x.2 = j ∨ ∃ (more : List (String × Nat)) (m : Nat),
        (under j.nested more x.2.linkType)[m]? = some x.2
  | ⟨_, _, name, _, _, nested⟩, way, h, around, x, hx => by
      rw [within] at hx
      rcases List.mem_cons.mp hx with rfl | hx
      · exact .inl rfl
      · exact .inr (exists_under_of_mem_treeWithin h.2 x hx)

/-- A way leads to each join below those of a list. -/
theorem exists_under_of_mem_listWithin : ∀ {js : List Join}
    {way : List (String × Nat)} {linkType : String} {n : Nat},
    ListStands js way linkType n → ∀ {around : List String},
    ∀ x ∈ listWithin around js, ∃ (i : Nat) (k : Join), js[i]? = some k
      ∧ (x.2 = k ∨ ∃ (more : List (String × Nat)) (m : Nat),
        (under k.nested more x.2.linkType)[m]? = some x.2)
  | [], _, _, _, _, _, _, hx => by cases hx
  | j :: rest, way, linkType, n, h, around, x, hx => by
      obtain ⟨-, hj, hrest⟩ := h
      rcases List.mem_append.mp hx with hx | hx
      · exact ⟨0, j, rfl, exists_under_of_mem_within hj x hx⟩
      · obtain ⟨i, k, hk, hx⟩ := exists_under_of_mem_listWithin hrest x hx
        exact ⟨i + 1, k, hk, hx⟩

/-- A way leads to each join of a tree. -/
theorem exists_under_of_mem_treeWithin : ∀ {tree : List (String × List Join)}
    {way : List (String × Nat)}, TreeStands tree way → ∀ {around : List String},
    ∀ x ∈ treeWithin around tree, ∃ (more : List (String × Nat)) (m : Nat),
      (under tree more x.2.linkType)[m]? = some x.2
  | [], _, _, _, _, hx => by cases hx
  | (linkType, js) :: rest, way, h, around, x, hx => by
      have hsorted := (treeStands_iff.mp h).1
      obtain ⟨hkeys, hlist, hrest⟩ := h
      rcases List.mem_append.mp hx with hx | hx
      · obtain ⟨i, k, hk, hx⟩ := exists_under_of_mem_listWithin hlist x hx
        have hfound : ((Dict.find? ((linkType, js) :: rest) linkType).getD [])[i]?
            = some k := by
          rw [Dict.find?_cons, if_pos rfl]
          exact hk
        rcases hx with rfl | hx
        · have hlink := (standsAt_of_getElem? hlist hk).1
          exact ⟨[], i, by rw [hlink]; exact hfound⟩
        · exact exists_under_of_nested hfound hx
      · obtain ⟨more, m, hm⟩ := exists_under_of_mem_treeWithin hrest x hx
        refine ⟨more, m, ?_⟩
        -- the first link type is none of the others
        have hother (t : String) (i : Nat) (k : Join)
            (hk : ((Dict.find? rest t).getD [])[i]? = some k) :
            Dict.find? ((linkType, js) :: rest) t = Dict.find? rest t := by
          rw [Dict.find?_cons, if_neg]
          rintro rfl
          cases hfind : Dict.find? rest linkType with
          | none => rw [hfind] at hk; cases hk
          | some ks =>
              exact String.lt_irrefl _ (hkeys _ (Dict.mem_of_find? hfind))
        cases more with
        | nil =>
            rw [under] at hm ⊢
            rw [hother _ _ _ hm]
            exact hm
        | cons step more =>
            obtain ⟨t, i⟩ := step
            rw [under] at hm ⊢
            cases hk : ((Dict.find? rest t).getD [])[i]? with
            | none => rw [hk] at hm; cases hm
            | some k =>
                rw [hother _ _ _ hk]
                exact hm

end

end Join

namespace Query

open Join

/-! ## Compiled queries -/

variable {tables : Tables} {select : Selection} {schema : Schema}
  {options : QueryOptions} {q : Query}

end Query

end LinkedContracts
