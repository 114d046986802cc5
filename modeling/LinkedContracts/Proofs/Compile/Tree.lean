import LinkedContracts.Proofs.Compile.Ways
import LinkedContracts.Proofs.Filter.Links

/-! # Trees of joins

    A way leads into a tree of joins.  A change at the end of a way leaves
    everything else as it is, changes at one place add up, and a change
    further on is a change of what stands at the first place.

    In a tree where each join is named for the way to it, and keys ascend,
    no two joins share a name. -/

namespace LinkedContracts

namespace Join

variable {tree below : Dict (List Join)} {way : List (String × Nat)}

/-! ## Changes at the end of a way -/

/-- Change the tree below the join that a way leads to. -/
def updateAt (change : Dict (List Join) → Dict (List Join)) :
    Dict (List Join) → List (String × Nat) → Dict (List Join)
  | tree, [] => change tree
  | tree, (t, i) :: rest =>
      match Dict.find? tree t with
      | some js => Dict.insert tree t (js.modify i fun j =>
          { j with nested := updateAt change j.nested rest })
      | none => tree

/-- The tree below the join that a way leads to. -/
def below? : Dict (List Join) → List (String × Nat) → Option (Dict (List Join))
  | tree, [] => some tree
  | tree, (t, i) :: rest =>
      (((Dict.find? tree t).getD [])[i]?).bind fun j => below? j.nested rest

/-- Changing the joins of a link type is changing the tree they are in. -/
theorem updateUnder_eq (change : List Join → List Join)
    (tree : Dict (List Join)) (way : List (String × Nat)) (linkType : String) :
    updateUnder change tree way linkType
      = updateAt (fun d => Dict.insert d linkType
          (change ((Dict.find? d linkType).getD []))) tree way := by
  induction way generalizing tree with
  | nil => rfl
  | cons step rest ih =>
      obtain ⟨t, i⟩ := step
      cases htree : Dict.find? tree t with
      | none => simp only [updateUnder, updateAt, htree]
      | some js => simp only [updateUnder, updateAt, htree, ih]

theorem under_eq (h : below? tree way = some below) (linkType : String) :
    under tree way linkType = (Dict.find? below linkType).getD [] := by
  induction way generalizing tree with
  | nil =>
      obtain rfl := Option.some.inj h
      rfl
  | cons step rest ih =>
      obtain ⟨t, i⟩ := step
      obtain ⟨j, hj, hbelow⟩ := Option.bind_eq_some_iff.mp h
      rw [under, hj]
      exact ih hbelow

/-- Changes at one place add up. -/
theorem updateAt_updateAt (f g : Dict (List Join) → Dict (List Join))
    (tree : Dict (List Join)) (way : List (String × Nat)) :
    updateAt g (updateAt f tree way) way = updateAt (fun d => g (f d)) tree way := by
  induction way generalizing tree with
  | nil => rfl
  | cons step rest ih =>
      obtain ⟨t, i⟩ := step
      cases htree : Dict.find? tree t with
      | none => simp [updateAt, htree]
      | some js =>
          simp only [updateAt, htree, Dict.find?_insert_self, Dict.insert_insert,
            List.modify_modify_eq, Function.comp_def, ih]

/-- A change further on is a change of what stands at the first place. -/
theorem updateAt_append (f : Dict (List Join) → Dict (List Join))
    (tree : Dict (List Join)) (way more : List (String × Nat)) :
    updateAt f tree (way ++ more)
      = updateAt (fun d => updateAt f d more) tree way := by
  induction way generalizing tree with
  | nil => rfl
  | cons step rest ih =>
      obtain ⟨t, i⟩ := step
      rw [List.cons_append, updateAt, updateAt]
      simp only [ih]

/-- What stands further on after a change. -/
theorem below?_updateAt {f : Dict (List Join) → Dict (List Join)}
    (h : below? tree way = some below) (more : List (String × Nat)) :
    below? (updateAt f tree way) (way ++ more) = below? (f below) more := by
  induction way generalizing tree with
  | nil =>
      obtain rfl := Option.some.inj h
      rfl
  | cons step rest ih =>
      obtain ⟨t, i⟩ := step
      obtain ⟨j, hj, hbelow⟩ := Option.bind_eq_some_iff.mp h
      cases htree : Dict.find? tree t with
      | none => simp [htree] at hj
      | some js =>
          rw [htree, Option.getD_some] at hj
          simp only [updateAt, htree, List.cons_append, below?,
            Dict.find?_insert_self, Option.getD_some, List.getElem?_modify, hj]
          simpa using ih hbelow

/-- Where the join that was put last stands. -/
def lastOf (tree : Dict (List Join)) (linkType : String) : String × Nat :=
  (linkType, ((Dict.find? tree linkType).getD []).length)

/-- A change of the join that was put last. -/
theorem modify_addTo (tree : Dict (List Join)) (j : Join) (change : Join → Join)
    (h : (change j).linkType = j.linkType) :
    Dict.insert (addTo tree j) j.linkType
        (((Dict.find? (addTo tree j) j.linkType).getD []).modify
          (lastOf tree j.linkType).2 change)
      = addTo tree (change j) := by
  have hlast : ((Dict.find? tree j.linkType).getD [] ++ [j]).modify
      ((Dict.find? tree j.linkType).getD []).length change
        = (Dict.find? tree j.linkType).getD [] ++ [change j] := by
    rw [List.modify_eq_take_cons_drop (by simp)]
    simp
  rw [addTo, Dict.find?_insert_self, Dict.insert_insert, addTo, h, lastOf,
    Option.getD_some, hlast]

theorem updateAt_addTo (f : Dict (List Join) → Dict (List Join))
    (tree : Dict (List Join)) (j : Join) :
    updateAt f (addTo tree j) [lastOf tree j.linkType]
      = addTo tree { j with nested := f j.nested } := by
  have h := modify_addTo tree j (fun k => { k with nested := f k.nested }) rfl
  rw [addTo, Dict.find?_insert_self] at h
  simp only [lastOf, updateAt, addTo, Dict.find?_insert_self]
  exact h

theorem below?_addTo (tree : Dict (List Join)) (j : Join) :
    below? (addTo tree j) [lastOf tree j.linkType] = some j.nested := by
  simp [below?, addTo, lastOf]

/-! ## Joins named for their ways -/

mutual

/-- A join stands at the end of a way, and the joins below it further on. -/
def StandsAt : Join → List (String × Nat) → Prop
  | ⟨_, _, name, _, _, nested⟩, way => name = nameOf way ∧ TreeStands nested way

/-- The joins of a list are of one link type and stand at numbers of their
    own, from `n` on. -/
def ListStands : List Join → List (String × Nat) → String → Nat → Prop
  | [], _, _, _ => True
  | j :: rest, way, linkType, n =>
      j.linkType = linkType ∧ StandsAt j (way ++ [(linkType, n)])
        ∧ ListStands rest way linkType (n + 1)

/-- The joins of a tree stand under their link types, which ascend. -/
def TreeStands : List (String × List Join) → List (String × Nat) → Prop
  | [], _ => True
  | (linkType, js) :: rest, way =>
      (∀ p ∈ rest, linkType < p.1) ∧ ListStands js way linkType 0
        ∧ TreeStands rest way

end

theorem standsAt_iff {j : Join} :
    j.StandsAt way ↔ j.name = nameOf way ∧ TreeStands j.nested way := by
  cases j
  rw [StandsAt]

theorem listStands_append {js ks : List Join} {linkType : String} {n : Nat} :
    ListStands (js ++ ks) way linkType n ↔
      ListStands js way linkType n
        ∧ ListStands ks way linkType (n + js.length) := by
  induction js generalizing n with
  | nil => simp [ListStands]
  | cons j rest ih =>
      have hn : n + 1 + rest.length = n + (rest.length + 1) := by omega
      simp only [List.cons_append, ListStands, ih, List.length_cons, hn, and_assoc]

theorem treeStands_iff :
    TreeStands tree way ↔
      Dict.Sorted tree ∧ ∀ p ∈ tree, ListStands p.2 way p.1 0 := by
  induction tree with
  | nil => simp [TreeStands, Dict.sorted_nil]
  | cons p rest ih =>
      obtain ⟨linkType, js⟩ := p
      rw [TreeStands, Dict.sorted_cons, List.forall_mem_cons, ih]
      constructor
      · rintro ⟨hkey, hlist, hsorted, hrest⟩
        exact ⟨⟨hkey, hsorted⟩, hlist, hrest⟩
      · rintro ⟨⟨hkey, hsorted⟩, hlist, hrest⟩
        exact ⟨hkey, hlist, hsorted, hrest⟩

/-- A join of a list stands somewhere. -/
theorem standsAt_of_mem {js : List Join} {j : Join} {linkType : String} {n : Nat}
    (h : ListStands js way linkType n) (hj : j ∈ js) :
    j.linkType = linkType ∧ ∃ way, j.StandsAt way := by
  induction js generalizing n with
  | nil => cases hj
  | cons k rest ih =>
      obtain ⟨hlink, hstands, hrest⟩ := h
      rcases List.mem_cons.mp hj with rfl | hj
      · exact ⟨hlink, _, hstands⟩
      · exact ih hrest hj

/-- A join that is put into a tree stands after those of its link type. -/
theorem treeStands_addTo (h : TreeStands tree way) {j : Join}
    (hj : j.StandsAt (way ++ [lastOf tree j.linkType])) :
    TreeStands (addTo tree j) way := by
  obtain ⟨hsorted, hlists⟩ := treeStands_iff.mp h
  refine treeStands_iff.mpr ⟨sorted_addTo hsorted j, fun p hp => ?_⟩
  rcases Dict.mem_of_mem_insert hp with rfl | hp
  · refine listStands_append.mpr ⟨?_, rfl, ?_, trivial⟩
    · cases hfind : Dict.find? tree j.linkType with
      | none => exact trivial
      | some js => exact hlists _ (Dict.mem_of_find? hfind)
    · rwa [Nat.zero_add]
  · exact hlists p hp

mutual

/-- Below a join that stands at a way, names spell longer ways. -/
theorem names_within : ∀ {j : Join} {way : List (String × Nat)},
    j.StandsAt way → ∀ (around : List String),
      (∀ x ∈ within around j, ∃ more, x.2.name = nameOf (way ++ more))
        ∧ ((within around j).map (·.2.name)).Nodup
  | ⟨linkType, parent, name, filter, hoisted, nested⟩, way, h, around => by
      obtain ⟨hname, hnested⟩ := h
      obtain ⟨hways, hnodup⟩ := names_treeWithin hnested (name :: around)
      rw [within]
      refine ⟨fun x hx => ?_, List.nodup_cons.mpr ⟨fun hmem => ?_, hnodup⟩⟩
      · rcases List.mem_cons.mp hx with rfl | hx
        · exact ⟨[], by simpa using hname⟩
        · obtain ⟨p, hp, i, more, hx⟩ := hways x hx
          exact ⟨_, hx⟩
      · obtain ⟨x, hx, heq⟩ := List.mem_map.mp hmem
        obtain ⟨p, hp, i, more, hway⟩ := hways x hx
        have hsame : nameOf (way ++ (p.1, i) :: more) = nameOf way := by
          rw [← hway, heq, hname]
        have hlength := congrArg List.length (nameOf_injective hsame)
        simp at hlength

/-- In a list of joins each stands at a number of its own. -/
theorem names_listWithin : ∀ {js : List Join} {way : List (String × Nat)}
    {linkType : String} {n : Nat}, ListStands js way linkType n →
    ∀ (around : List String),
      (∀ x ∈ listWithin around js, ∃ i more, n ≤ i
        ∧ x.2.name = nameOf (way ++ (linkType, i) :: more))
        ∧ ((listWithin around js).map (·.2.name)).Nodup
  | [], _, _, _, _, _ => ⟨nofun, List.nodup_nil⟩
  | j :: rest, way, linkType, n, h, around => by
      obtain ⟨-, hj, hrest⟩ := h
      obtain ⟨hown, hownNodup⟩ := names_within hj around
      obtain ⟨hways, hnodup⟩ := names_listWithin hrest around
      rw [listWithin, List.map_append]
      refine ⟨fun x hx => ?_, List.nodup_append.mpr
        ⟨hownNodup, hnodup, fun name hfirst other hlater heq => ?_⟩⟩
      · rcases List.mem_append.mp hx with hx | hx
        · obtain ⟨more, hx⟩ := hown x hx
          exact ⟨n, more, Nat.le_refl n, by simpa using hx⟩
        · obtain ⟨i, more, hi, hx⟩ := hways x hx
          exact ⟨i, more, by omega, hx⟩
      · obtain ⟨x, hx, rfl⟩ := List.mem_map.mp hfirst
        obtain ⟨y, hy, rfl⟩ := List.mem_map.mp hlater
        obtain ⟨more, hx⟩ := hown x hx
        obtain ⟨i, others, hi, hy⟩ := hways y hy
        rw [hx, hy, List.append_assoc] at heq
        have hstep := List.append_cancel_left (nameOf_injective heq)
        simp only [List.cons_append, List.cons.injEq, Prod.mk.injEq] at hstep
        omega

/-- In a tree of joins each stands under its link type. -/
theorem names_treeWithin : ∀ {tree : List (String × List Join)}
    {way : List (String × Nat)}, TreeStands tree way →
    ∀ (around : List String),
      (∀ x ∈ treeWithin around tree, ∃ p ∈ tree, ∃ i more,
        x.2.name = nameOf (way ++ (p.1, i) :: more))
        ∧ ((treeWithin around tree).map (·.2.name)).Nodup
  | [], _, _, _ => ⟨nofun, List.nodup_nil⟩
  | (linkType, js) :: rest, way, h, around => by
      obtain ⟨hkeys, hlist, hrest⟩ := h
      obtain ⟨hown, hownNodup⟩ := names_listWithin hlist around
      obtain ⟨hways, hnodup⟩ := names_treeWithin hrest around
      rw [treeWithin, List.map_append]
      refine ⟨fun x hx => ?_, List.nodup_append.mpr
        ⟨hownNodup, hnodup, fun name hfirst other hlater heq => ?_⟩⟩
      · rcases List.mem_append.mp hx with hx | hx
        · obtain ⟨i, more, -, hx⟩ := hown x hx
          exact ⟨_, List.mem_cons_self, i, more, hx⟩
        · obtain ⟨p, hp, i, more, hx⟩ := hways x hx
          exact ⟨p, List.mem_cons_of_mem _ hp, i, more, hx⟩
      · obtain ⟨x, hx, rfl⟩ := List.mem_map.mp hfirst
        obtain ⟨y, hy, rfl⟩ := List.mem_map.mp hlater
        obtain ⟨i, more, -, hx⟩ := hown x hx
        obtain ⟨p, hp, j, others, hy⟩ := hways y hy
        rw [hx, hy] at heq
        have hstep := List.append_cancel_left (nameOf_injective heq)
        simp only [List.cons.injEq, Prod.mk.injEq] at hstep
        exact String.lt_irrefl linkType (hstep.1.1 ▸ hkeys p hp)

end

end Join

end LinkedContracts
