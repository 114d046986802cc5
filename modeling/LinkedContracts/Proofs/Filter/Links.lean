import LinkedContracts.Plan
import LinkedContracts.Proofs.Dict

/-! # The links of a filter and the joins of a tree

    The links a filter asks for, and the joins of a tree, each with the
    names of the joins around it: `linksWithin` lists the one, `treeWithin`
    the other.

    The joins of a filter are added to a tree one by one, each with a tree of
    its own for the links below it.  The tree then has the joins it had and
    one for each link, with the same names around it. -/

namespace LinkedContracts

/-- A link as it is asked for. -/
structure LinkTerm where
  parent : String
  linkType : String
  joined : String
  filter : Filter

namespace Filter

mutual

/-- The links a filter asks for, each with the names of the joins around it,
    the innermost first. -/
def linksWithin (around : List String) :
    Filter → List (List String × LinkTerm)
  | conj fs | disj fs => linksWithinAll around fs
  | neg f | each _ _ _ _ f => linksWithin around f
  | linked parent linkType joined f =>
      (around, ⟨parent, linkType, joined, f⟩)
        :: linksWithin (joined :: around) f
  | _ => []

/-- The links that filters ask for. -/
def linksWithinAll (around : List String) :
    List Filter → List (List String × LinkTerm)
  | [] => []
  | f :: rest => linksWithin around f ++ linksWithinAll around rest

end

end Filter

namespace Join

/-- The link that a join is made for. -/
def term (j : Join) : LinkTerm := ⟨j.parent, j.linkType, j.name, j.filter⟩

mutual

/-- A join and the joins below it, each with the names of the joins around
    it, the innermost first; parents come first. -/
def within (around : List String) : Join → List (List String × Join)
  | ⟨linkType, parent, name, filter, hoisted, nested⟩ =>
      (around, ⟨linkType, parent, name, filter, hoisted, nested⟩)
        :: treeWithin (name :: around) nested

/-- The joins of a list and below. -/
def listWithin (around : List String) : List Join → List (List String × Join)
  | [] => []
  | j :: rest => within around j ++ listWithin around rest

/-- The joins of a tree. -/
def treeWithin (around : List String) :
    List (String × List Join) → List (List String × Join)
  | [] => []
  | (_, js) :: rest => listWithin around js ++ treeWithin around rest

end

/-- Put a join after those of its link type. -/
def addTo (tree : Dict (List Join)) (j : Join) : Dict (List Join) :=
  Dict.insert tree j.linkType ((Dict.find? tree j.linkType).getD [] ++ [j])

theorem within_eq (around : List String) (j : Join) :
    within around j = (around, j) :: treeWithin (j.name :: around) j.nested := by
  cases j
  rfl

theorem listWithin_append (around : List String) (js ks : List Join) :
    listWithin around (js ++ ks) = listWithin around js ++ listWithin around ks := by
  induction js with
  | nil => rfl
  | cons j rest ih => simp [listWithin, ih]

/-- A join in a tree, with all that is below it. -/
theorem within_subset {linkType : String} {tree : List (String × List Join)}
    {js : List Join} {j : Join} (hjs : (linkType, js) ∈ tree) (hj : j ∈ js)
    (around : List String) :
    within around j ⊆ treeWithin around tree := by
  have list (js : List Join) (hj : j ∈ js) :
      within around j ⊆ listWithin around js := by
    induction js with
    | nil => cases hj
    | cons k rest ih =>
        rcases List.mem_cons.mp hj with rfl | hj
        · exact List.subset_append_left _ _
        · exact List.Subset.trans (ih hj) (List.subset_append_right _ _)
  induction tree with
  | nil => cases hjs
  | cons p rest ih =>
      obtain ⟨name, ks⟩ := p
      rcases List.mem_cons.mp hjs with heq | hjs
      · obtain ⟨rfl, rfl⟩ := Prod.mk.inj heq
        exact List.Subset.trans (list js hj) (List.subset_append_left _ _)
      · exact List.Subset.trans (ih hjs) (List.subset_append_right _ _)

/-- A join that is put into a tree comes with those below it. -/
theorem treeWithin_addTo {tree : Dict (List Join)} (h : Dict.Sorted tree)
    (around : List String) (j : Join) :
    (treeWithin around (addTo tree j)).Perm
      (treeWithin around tree ++ within around j) := by
  induction tree with
  | nil => simp [addTo, Dict.insert, treeWithin, listWithin]
  | cons p rest ih =>
      obtain ⟨key, js⟩ := p
      obtain ⟨hkey, hrest⟩ := Dict.sorted_cons.mp h
      by_cases heq : key = j.linkType
      · have hadd : addTo ((key, js) :: rest) j = (key, js ++ [j]) :: rest := by
          simp [addTo, Dict.insert, Dict.find?_cons, heq]
        rw [hadd, treeWithin, treeWithin, listWithin_append]
        simp only [listWithin, List.append_nil, List.append_assoc]
        exact (List.perm_append_comm).append_left _
      by_cases hlt : j.linkType < key
      · have hnone : Dict.find? ((key, js) :: rest) j.linkType = none := by
          rw [Dict.find?_eq_none]
          intro hmem
          rcases List.mem_cons.mp hmem with rfl | hmem
          · exact String.lt_irrefl _ hlt
          · obtain ⟨q, hq, heq⟩ := List.mem_map.mp hmem
            exact String.lt_asymm hlt (heq ▸ hkey q hq)
        have hadd : addTo ((key, js) :: rest) j
            = (j.linkType, [j]) :: (key, js) :: rest := by
          rw [addTo, hnone]
          simp [Dict.insert, heq, hlt]
        rw [hadd, treeWithin]
        simpa [listWithin] using List.perm_append_comm
      · have hadd : addTo ((key, js) :: rest) j = (key, js) :: addTo rest j := by
          simp [addTo, Dict.insert, Dict.find?_cons, heq, hlt]
        rw [hadd, treeWithin, treeWithin, List.append_assoc]
        exact (ih hrest).append_left _

theorem sorted_addTo {tree : Dict (List Join)} (h : Dict.Sorted tree) (j : Join) :
    Dict.Sorted (addTo tree j) :=
  h.insert _ _

end Join

namespace Filter

mutual

/-- A tree with the joins of a filter added. -/
def addJoins : Filter → Dict (List Join) → Dict (List Join)
  | conj fs, tree | disj fs, tree => addAllJoins fs tree
  | neg f, tree | each _ _ _ _ f, tree => addJoins f tree
  | linked parent linkType joined f, tree =>
      Join.addTo tree ⟨linkType, parent, joined, f, !(joins f).isEmpty,
        addJoins f []⟩
  | _, tree => tree

/-- A tree with the joins of filters added. -/
def addAllJoins : List Filter → Dict (List Join) → Dict (List Join)
  | [], tree => tree
  | f :: rest, tree => addAllJoins rest (addJoins f tree)

end

mutual

/-- A filter that refers to no joins adds none. -/
theorem addJoins_of_no_joins : ∀ (f : Filter) {tree : Dict (List Join)},
    f.joins = [] → f.addJoins tree = tree
  | conj fs, _, h | disj fs, _, h => addAllJoins_of_no_joins fs h
  | neg f, _, h | each _ _ _ _ f, _, h => addJoins_of_no_joins f h
  | linked _ _ _ _, _, h => nomatch h
  | always, _, _ | never, _, _ | present _, _, _ | typeIs _ _, _, _
  | equals _ _, _, _ | oneOf _ _, _, _ | pattern _ _, _, _
  | bound _ _ _, _, _ | length _ _ _, _, _ | itemCount _ _ _, _, _
  | fullText _ _, _, _ => rfl

theorem addAllJoins_of_no_joins : ∀ (fs : List Filter) {tree : Dict (List Join)},
    joinsAll fs = [] → addAllJoins fs tree = tree
  | [], _, _ => rfl
  | f :: rest, _, h => by
      obtain ⟨hfirst, hrest⟩ := List.append_eq_nil_iff.mp h
      rw [addAllJoins, addJoins_of_no_joins f hfirst,
        addAllJoins_of_no_joins rest hrest]

end

/-- The joins of a filter. -/
def joinTree (f : Filter) : Dict (List Join) := f.addJoins []

/-! ## Several filters -/

theorem addAllJoins_append (fs gs : List Filter) (tree : Dict (List Join)) :
    addAllJoins (fs ++ gs) tree = addAllJoins gs (addAllJoins fs tree) := by
  induction fs generalizing tree with
  | nil => rfl
  | cons f rest ih => exact ih _

theorem joinsAll_append (fs gs : List Filter) :
    joinsAll (fs ++ gs) = joinsAll fs ++ joinsAll gs := by
  induction fs with
  | nil => rfl
  | cons f rest ih => simp [joinsAll, ih]

theorem linksWithinAll_append (around : List String) (fs gs : List Filter) :
    linksWithinAll around (fs ++ gs)
      = linksWithinAll around fs ++ linksWithinAll around gs := by
  induction fs with
  | nil => rfl
  | cons f rest ih => simp [linksWithinAll, ih]

/-- A value read off the links of filters does not see the filters that
    always hold. -/
theorem ofAll_eq {α : Type} (one : Filter → α) (all : List Filter → α)
    (hconj : ∀ fs, one (.conj fs) = all fs) (hone : ∀ f, all [f] = one f)
    (halways : ∀ rest, all (.always :: rest) = all rest)
    (hnil : one .always = all [])
    (hcongr : ∀ f {fs gs}, all fs = all gs → all (f :: fs) = all (f :: gs))
    (fs : List Filter) : one (.ofAll fs) = all fs := by
  have drop : all (fs.filter fun f => !f.isAlways) = all fs := by
    induction fs with
    | nil => rfl
    | cons f rest ih =>
        cases hf : f.isAlways with
        | true =>
            obtain rfl : f = .always := by cases f <;> first | rfl | cases hf
            rw [List.filter_cons_of_neg (by simp [isAlways]), ih, halways]
        | false =>
            rw [List.filter_cons_of_pos (by simp [hf])]
            exact hcongr f ih
  rw [← drop, ofAll]
  split
  · next h => rw [h, hnil]
  · next f h => rw [h, hone]
  · next h => rw [hconj]

theorem joins_ofAll (fs : List Filter) : (ofAll fs).joins = joinsAll fs :=
  ofAll_eq joins joinsAll (fun _ => rfl) (fun _ => List.append_nil _)
    (fun _ => rfl) rfl (fun f _ _ h => congrArg (f.joins ++ ·) h) fs

theorem linksWithin_ofAll (around : List String) (fs : List Filter) :
    (ofAll fs).linksWithin around = linksWithinAll around fs :=
  ofAll_eq (linksWithin around) (linksWithinAll around) (fun _ => rfl)
    (fun _ => List.append_nil _) (fun _ => rfl) rfl
    (fun f _ _ h => congrArg (f.linksWithin around ++ ·) h) fs

/-! ## One join for each link -/

mutual

/-- The joins a filter refers to are those of its links. -/
theorem joins_eq (around : List String) :
    ∀ f : Filter, f.joins = (f.linksWithin around).map (·.2.joined)
  | conj fs | disj fs => joinsAll_eq around fs
  | neg f | each _ _ _ _ f => joins_eq around f
  | linked _ _ joined f =>
      congrArg (joined :: ·) (joins_eq (joined :: around) f)
  | always | never | present _ | typeIs _ _ | equals _ _ | oneOf _ _
  | pattern _ _ | bound _ _ _ | length _ _ _ | itemCount _ _ _
  | fullText _ _ => rfl

theorem joinsAll_eq (around : List String) : ∀ fs : List Filter,
    joinsAll fs = (linksWithinAll around fs).map (·.2.joined)
  | [] => rfl
  | f :: rest => by
      rw [joinsAll, linksWithinAll, List.map_append, joins_eq around f,
        joinsAll_eq around rest]

end

theorem linksWithinAll_eq_nil {fs : List Filter} (h : joinsAll fs = [])
    {around : List String} : linksWithinAll around fs = [] := by
  rw [joinsAll_eq around] at h
  exact List.map_eq_nil_iff.mp h

mutual

theorem sorted_addJoins : ∀ (f : Filter) {tree : Dict (List Join)},
    Dict.Sorted tree → Dict.Sorted (f.addJoins tree)
  | conj fs, _, h | disj fs, _, h => sorted_addAllJoins fs h
  | neg f, _, h | each _ _ _ _ f, _, h => sorted_addJoins f h
  | linked _ _ _ _, _, h => Join.sorted_addTo h _
  | always, _, h | never, _, h | present _, _, h | typeIs _ _, _, h
  | equals _ _, _, h | oneOf _ _, _, h | pattern _ _, _, h
  | bound _ _ _, _, h | length _ _ _, _, h | itemCount _ _ _, _, h
  | fullText _ _, _, h => h

theorem sorted_addAllJoins : ∀ (fs : List Filter) {tree : Dict (List Join)},
    Dict.Sorted tree → Dict.Sorted (addAllJoins fs tree)
  | [], _, h => h
  | f :: rest, _, h => sorted_addAllJoins rest (sorted_addJoins f h)

end

/-- The links that the joins of a tree are made for, with the names around
    them. -/
def termsWithin (around : List String) (tree : Dict (List Join)) :
    List (List String × LinkTerm) :=
  (Join.treeWithin around tree).map fun x => (x.1, x.2.term)

mutual

/-- A filter adds one join for each of its links. -/
theorem termsWithin_addJoins (around : List String) :
    ∀ (f : Filter) {tree : Dict (List Join)}, Dict.Sorted tree →
      (termsWithin around (f.addJoins tree)).Perm
        (termsWithin around tree ++ f.linksWithin around)
  | conj fs, _, h | disj fs, _, h => termsWithin_addAllJoins around fs h
  | neg f, _, h | each _ _ _ _ f, _, h => termsWithin_addJoins around f h
  | linked parent linkType joined f, tree, h => by
      have below : (termsWithin (joined :: around) (f.addJoins [])).Perm
          (f.linksWithin (joined :: around)) :=
        termsWithin_addJoins (joined :: around) f Dict.sorted_nil
      have added := (Join.treeWithin_addTo h around ⟨linkType, parent, joined, f,
        !(joins f).isEmpty, f.addJoins []⟩).map fun x => (x.1, x.2.term)
      rw [List.map_append, Join.within_eq, List.map_cons] at added
      exact added.trans ((below.cons _).append_left _)
  | always, _, h | never, _, h | present _, _, h | typeIs _ _, _, h
  | equals _ _, _, h | oneOf _ _, _, h | pattern _ _, _, h
  | bound _ _ _, _, h | length _ _ _, _, h | itemCount _ _ _, _, h
  | fullText _ _, _, h => by
      simp [addJoins, linksWithin]

theorem termsWithin_addAllJoins (around : List String) :
    ∀ (fs : List Filter) {tree : Dict (List Join)}, Dict.Sorted tree →
      (termsWithin around (addAllJoins fs tree)).Perm
        (termsWithin around tree ++ linksWithinAll around fs)
  | [], _, h => by simp [addAllJoins, linksWithinAll]
  | f :: rest, tree, h => by
      have first := termsWithin_addJoins around f h
      have others := termsWithin_addAllJoins around rest (sorted_addJoins f h)
      rw [linksWithinAll, ← List.append_assoc]
      exact others.trans (first.append_right _)

end

end Filter

namespace Join

/-- A join is made as its filter is: it is hoisted if the filter refers to
    joins, and these are nested in it. -/
structure Made (j : Join) : Prop where
  hoisted : j.hoisted = !j.filter.joins.isEmpty
  nested : j.nested = j.filter.joinTree

/-- All joins of a tree are made as their filters are. -/
def AllMade (tree : Dict (List Join)) : Prop :=
  ∀ around, ∀ x ∈ treeWithin around tree, x.2.Made

theorem AllMade.addTo {tree : Dict (List Join)} (h : AllMade tree)
    (hsorted : Dict.Sorted tree) {j : Join} (hj : j.Made)
    (hbelow : AllMade j.nested) : AllMade (addTo tree j) := by
  intro around x hx
  rw [(treeWithin_addTo hsorted around j).mem_iff, List.mem_append] at hx
  rcases hx with hx | hx
  · exact h around x hx
  · rw [within_eq] at hx
    rcases List.mem_cons.mp hx with rfl | hx
    · exact hj
    · exact hbelow _ x hx

end Join

namespace Filter

mutual

theorem allMade_addJoins : ∀ (f : Filter) {tree : Dict (List Join)},
    Dict.Sorted tree → Join.AllMade tree → Join.AllMade (f.addJoins tree)
  | conj fs, _, hs, h | disj fs, _, hs, h => allMade_addAllJoins fs hs h
  | neg f, _, hs, h | each _ _ _ _ f, _, hs, h => allMade_addJoins f hs h
  | linked _ _ _ f, _, hs, h =>
      h.addTo hs ⟨rfl, rfl⟩ (allMade_addJoins f Dict.sorted_nil fun _ => nofun)
  | always, _, _, h | never, _, _, h | present _, _, _, h | typeIs _ _, _, _, h
  | equals _ _, _, _, h | oneOf _ _, _, _, h | pattern _ _, _, _, h
  | bound _ _ _, _, _, h | length _ _ _, _, _, h | itemCount _ _ _, _, _, h
  | fullText _ _, _, _, h => h

theorem allMade_addAllJoins : ∀ (fs : List Filter) {tree : Dict (List Join)},
    Dict.Sorted tree → Join.AllMade tree → Join.AllMade (addAllJoins fs tree)
  | [], _, _, h => h
  | f :: rest, _, hs, h =>
      allMade_addAllJoins rest (sorted_addJoins f hs) (allMade_addJoins f hs h)

end

/-- The joins of a filter are hoisted and nested as the links below them
    are. -/
theorem allMade_joinTree (f : Filter) : Join.AllMade f.joinTree :=
  allMade_addJoins f Dict.sorted_nil fun _ => nofun

end Filter

end LinkedContracts
