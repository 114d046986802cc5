import LinkedContracts.Proofs.Compile.Planning
import LinkedContracts.Proofs.Dict
import LinkedContracts.Query

/-! # The names of joins

    Every join of a plan is named for a way through links, so that no join
    takes the name of a column that every row has. -/

namespace LinkedContracts

namespace Join

mutual

/-- A join and all joins below it are named for ways. -/
def Named : Join → Prop
  | ⟨_, _, name, _, _, nested⟩ =>
      (∃ way, name = nameOf way) ∧ TreeNamed nested

/-- All joins of a list and below are named for ways. -/
def ListNamed : List Join → Prop
  | [] => True
  | j :: rest => Named j ∧ ListNamed rest

/-- All joins of a tree are named for ways. -/
def TreeNamed : List (String × List Join) → Prop
  | [] => True
  | (_, js) :: rest => ListNamed js ∧ TreeNamed rest

end

theorem named_iff {j : Join} :
    j.Named ↔ (∃ way, j.name = nameOf way) ∧ TreeNamed j.nested := by
  cases j
  rw [Named]

theorem listNamed_iff {js : List Join} : ListNamed js ↔ ∀ j ∈ js, j.Named := by
  induction js with
  | nil => simp [ListNamed]
  | cons j rest ih => simp [ListNamed, ih]

theorem treeNamed_iff {tree : List (String × List Join)} :
    TreeNamed tree ↔ ∀ p ∈ tree, ListNamed p.2 := by
  induction tree with
  | nil => simp [TreeNamed]
  | cons p rest ih =>
      obtain ⟨linkType, js⟩ := p
      simp [TreeNamed, ih]

theorem treeNamed_insert {tree : Dict (List Join)} {js : List Join}
    (h : TreeNamed tree) (hjs : ListNamed js) (linkType : String) :
    TreeNamed (Dict.insert tree linkType js) := by
  rw [treeNamed_iff] at h ⊢
  intro p hp
  rcases Dict.mem_of_mem_insert hp with rfl | hp
  · exact hjs
  · exact h p hp

theorem listNamed_find? {tree : Dict (List Join)} {js : List Join}
    (h : TreeNamed tree) {linkType : String}
    (hjs : Dict.find? tree linkType = some js) : ListNamed js :=
  treeNamed_iff.mp h _ (Dict.mem_of_find? hjs)

theorem listNamed_modify {js : List Join} (h : ListNamed js) {f : Join → Join}
    (hf : ∀ j ∈ js, (f j).Named) (i : Nat) : ListNamed (js.modify i f) := by
  rw [listNamed_iff] at h ⊢
  intro j hj
  obtain ⟨n, hn⟩ := List.mem_iff_getElem?.mp hj
  rw [List.getElem?_modify] at hn
  obtain ⟨k, hk, rfl⟩ := Option.map_eq_some_iff.mp hn
  have hmem := List.mem_of_getElem? hk
  split
  · exact hf k hmem
  · exact h k hmem

/-- A change of the joins below a join leaves all joins named. -/
theorem treeNamed_updateUnder {change : List Join → List Join}
    (hchange : ∀ js, ListNamed js → ListNamed (change js))
    {tree : Dict (List Join)} (h : TreeNamed tree) (way : List (String × Nat))
    (linkType : String) : TreeNamed (updateUnder change tree way linkType) := by
  induction way generalizing tree with
  | nil =>
      refine treeNamed_insert h (hchange _ ?_) linkType
      cases hf : Dict.find? tree linkType with
      | none => exact trivial
      | some js => exact listNamed_find? h hf
  | cons step rest ih =>
      obtain ⟨t, i⟩ := step
      rw [updateUnder]
      split
      · next js hjs =>
          have hlist := listNamed_find? h hjs
          refine treeNamed_insert h (listNamed_modify hlist (fun j hj => ?_) i) t
          have hj := named_iff.mp (listNamed_iff.mp hlist j hj)
          exact named_iff.mpr ⟨hj.1, ih hj.2⟩
      · exact h

end Join

open Stateful

/-- Planning leaves the joins named. -/
theorem Plan.named_stable :
    Stable fun p q => Join.TreeNamed p.joins → Join.TreeNamed q.joins where
  refl _ h := h
  trans hpq hqr h := hqr (hpq h)
  freshMember _ h := h
  addLink linkType step hstep := by
    intro p hp
    have entered : Join.TreeNamed (p.inside linkType).joins := by
      refine Join.treeNamed_updateUnder (fun js hjs => ?_) hp _ _
      rw [Join.listNamed_iff] at hjs ⊢
      intro j hj
      rcases List.mem_append.mp hj with hj | hj
      · exact hjs j hj
      · obtain rfl := List.mem_singleton.mp hj
        exact Join.named_iff.mpr ⟨⟨_, rfl⟩, trivial⟩
    have inside := hstep (p.inside linkType) entered
    rw [run_addLink]
    cases hs : step.run (p.inside linkType) with
    | mk result r =>
        rw [hs] at inside
        have left : Join.TreeNamed r.pop.leave.joins := by
          simp only [Plan.leave, Plan.pop]
          split <;> exact inside
        cases result with
        | error e => exact left
        | ok f =>
            refine Join.treeNamed_updateUnder (fun js hjs => ?_) left _ _
            refine Join.listNamed_modify hjs (fun j hj => ?_) _
            have hname := Join.named_iff.mp (Join.listNamed_iff.mp hjs j hj)
            exact Join.named_iff.mpr ⟨hname.1, hname.2⟩

namespace Query

mutual

private theorem named_joinSelections : ∀ {j : Join} (select : Selection),
    j.Named → ∀ x ∈ joinSelections j select, ∃ way, x.1.name = Join.nameOf way
  | ⟨_, _, _, _, _, nested⟩, select, h, x, hx => by
      rw [Join.Named] at h
      rw [joinSelections] at hx
      rcases List.mem_cons.mp hx with rfl | hx
      · exact h.1
      · exact named_treeSelections select h.2 x hx

private theorem named_listSelections : ∀ {js : List Join} (select : Selection),
    Join.ListNamed js →
    ∀ x ∈ listSelections js select, ∃ way, x.1.name = Join.nameOf way
  | [], _, _, x, hx => by cases hx
  | j :: rest, select, h, x, hx => by
      rw [Join.ListNamed] at h
      rcases List.mem_append.mp hx with hx | hx
      · exact named_joinSelections select h.1 x hx
      · exact named_listSelections select h.2 x hx

private theorem named_treeSelections :
    ∀ {tree : List (String × List Join)} (select : Selection),
    Join.TreeNamed tree →
    ∀ x ∈ treeSelections tree select, ∃ way, x.1.name = Join.nameOf way
  | [], _, _, x, hx => by cases hx
  | (linkType, js) :: rest, select, h, x, hx => by
      rw [Join.TreeNamed] at h
      rcases List.mem_append.mp hx with hx | hx
      · exact named_listSelections _ h.1 x hx
      · exact named_treeSelections select h.2 x hx

end

/-- A query compiles when its schema does and it asks for some result. -/
theorem compile_eq_ok [TextLibrary] {tables : Tables} {select : Selection} {schema : Schema}
    {options : QueryOptions} {q : Query} :
    compile tables select schema options = .ok q ↔
      ∃ f plan, (Schema.compileRow schema).run (Plan.start tables.contracts)
          = (.ok f, plan)
        ∧ options.limit ≠ some 0
        ∧ q = ⟨tables, select, f, plan.joins, options⟩ := by
  simp only [compile]
  cases (Schema.compileRow schema).run (Plan.start tables.contracts) with
  | mk result plan =>
      cases result with
      | error e =>
          refine ⟨nofun, ?_⟩
          rintro ⟨f, other, heq, -⟩
          cases heq
      | ok f =>
          constructor
          · intro h
            dsimp only at h
            split at h
            · cases h
            · next hlimit =>
                exact ⟨f, plan, rfl, hlimit, (Except.ok.inj h).symm⟩
          · rintro ⟨_, _, heq, hlimit, rfl⟩
            cases heq
            exact if_neg hlimit

/-- The joins of a compiled query are named for ways. -/
theorem named_of_compile [TextLibrary] {tables : Tables} {select : Selection}
    {schema : Schema} {options : QueryOptions} {q : Query}
    (h : compile tables select schema options = .ok q) :
    ∀ x ∈ q.selectedJoins, ∃ way, x.1.name = Join.nameOf way := by
  obtain ⟨f, plan, hrun, -, rfl⟩ := compile_eq_ok.mp h
  have named := Plan.named_stable.bind Plan.named_stable.get
    (fun p => Schema.compile_keeps Plan.named_stable schema (.row p.scope))
    (Plan.start tables.contracts) trivial
  rw [← Schema.compileRow, hrun] at named
  exact named_treeSelections select named

/-- The name of a way is none of the names of columns. -/
theorem nameOf_ne {way : List (String × Nat)} {name : String}
    (h : name.toList.head? ≠ some 'j') : Join.nameOf way ≠ name := by
  rintro rfl
  simp [Join.nameOf] at h

end Query

end LinkedContracts
