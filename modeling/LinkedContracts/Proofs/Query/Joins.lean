import LinkedContracts.Proofs.Compile.Asked
import LinkedContracts.Proofs.Compile.JoinNames
import LinkedContracts.Proofs.Sql.Mentions

/-! # The joins of a query

    The joins of a compiled query mirror the links of its filter: there is
    one join for each link, of the same name, link type, parent and filter
    and with the same joins around it.  A filter that refers to joins leaves
    its join, so that, in the order joins are made, the conditions of each
    mention its own two tables and what was there before. -/

namespace LinkedContracts

namespace Query

open Join Stateful

/-! ## The order of joins -/

mutual

private theorem joins_joinSelections (around : List String) :
    ∀ (j : Join) (select : Selection),
      (joinSelections j select).map (·.1) = (within around j).map (·.2)
  | ⟨_, _, name, _, _, nested⟩, select => by
      rw [joinSelections, within, List.map_cons, List.map_cons,
        joins_treeSelections (name :: around) nested select]

private theorem joins_listSelections (around : List String) :
    ∀ (js : List Join) (select : Selection),
      (listSelections js select).map (·.1) = (listWithin around js).map (·.2)
  | [], _ => rfl
  | j :: rest, select => by
      rw [listSelections, listWithin, List.map_append, List.map_append,
        joins_joinSelections around j select,
        joins_listSelections around rest select]

private theorem joins_treeSelections (around : List String) :
    ∀ (tree : List (String × List Join)) (select : Selection),
      (treeSelections tree select).map (·.1) = (treeWithin around tree).map (·.2)
  | [], _ => rfl
  | (linkType, js) :: rest, select => by
      rw [treeSelections, treeWithin, List.map_append, List.map_append,
        joins_listSelections around js, joins_treeSelections around rest select]

end

/-- In a list of joins that starts below the joins `around`, the join around
    another one comes before it. -/
def Ordered (around : List String) (l : List (List String × Join)) : Prop :=
  ∀ (before after : List (List String × Join)) (x : List String × Join),
    l = before ++ x :: after →
    x.1 = around ∨ ∃ y ∈ before, x.1.head? = some y.2.name

namespace Ordered

variable {around : List String} {l m : List (List String × Join)}

theorem append (hl : Ordered around l) (hm : Ordered around m) :
    Ordered around (l ++ m) := by
  intro before after x h
  rcases List.append_eq_append_iff.mp h with ⟨more, rfl, hm'⟩ | ⟨more, rfl, hl'⟩
  · rcases hm more after x hm' with hx | ⟨y, hy, hx⟩
    · exact .inl hx
    · exact .inr ⟨y, List.mem_append_right _ hy, hx⟩
  · cases more with
    | nil =>
        rcases hm [] after x hl'.symm with hx | ⟨y, hy, -⟩
        · exact .inl hx
        · cases hy
    | cons z more =>
        obtain ⟨rfl, -⟩ := List.cons.inj hl'
        exact hl before more x rfl

/-- Below a join everything comes after it. -/
theorem cons {j : Join} (h : Ordered (j.name :: around) l) :
    Ordered around ((around, j) :: l) := by
  intro before after x hx
  cases before with
  | nil => exact .inl (congrArg Prod.fst (List.cons.inj hx).1).symm
  | cons y before =>
      obtain ⟨rfl, hrest⟩ := List.cons.inj hx
      rcases h before after x hrest with hname | ⟨y, hy, hname⟩
      · exact .inr ⟨_, List.mem_cons_self, congrArg List.head? hname⟩
      · exact .inr ⟨y, List.mem_cons_of_mem _ hy, hname⟩

end Ordered

mutual

private theorem ordered_within : ∀ (around : List String) (j : Join),
    Ordered around (within around j)
  | around, ⟨_, _, name, _, _, nested⟩ =>
      .cons (ordered_treeWithin (name :: around) nested)

private theorem ordered_listWithin : ∀ (around : List String) (js : List Join),
    Ordered around (listWithin around js)
  | _, [] => by
      intro before after x h
      simp [listWithin] at h
  | around, j :: rest =>
      .append (ordered_within around j) (ordered_listWithin around rest)

private theorem ordered_treeWithin :
    ∀ (around : List String) (tree : List (String × List Join)),
      Ordered around (treeWithin around tree)
  | _, [] => by
      intro before after x h
      simp [treeWithin] at h
  | around, (_, js) :: rest =>
      .append (ordered_listWithin around js) (ordered_treeWithin around rest)

end

/-! ## Compiled queries -/

variable {tables : Tables} {select : Selection} {schema : Schema}
  {options : QueryOptions} {q : Query}

end Query

end LinkedContracts
