import LinkedContracts.Proofs.Compile.Grown
import LinkedContracts.Proofs.Filter.Condition
import LinkedContracts.Query.Statement

/-! # What conditions mention

    The names of rows and members that a condition of a statement mentions
    and does not bind itself.  What a condition comes to depends on these
    only.

    A filter without links, compiled at a path, mentions what the path starts
    from and nothing else.  That is what lets it stand in the condition of a
    join. -/

namespace LinkedContracts

namespace Sql

namespace Condition

mutual

/-- The names a condition mentions, without those it binds. -/
def mentions : Condition → List String
  | const _ => []
  | all parts | any parts => mentionsAll parts
  | neg part => mentions part
  | present p | typeIs p _ | whole p | test _ p _ | among p _ _ =>
      [p.scope.name]
  | choose cond yes otherwise =>
      mentions cond ++ mentions yes ++ mentions otherwise
  | exist _ p _ name part =>
      p.scope.name :: (mentions part).filter fun other => other ≠ name
  | linked parent _ join part =>
      parent :: (mentions part).filter fun other => other ≠ join

/-- The names that conditions mention. -/
def mentionsAll : List Condition → List String
  | [] => []
  | c :: rest => mentions c ++ mentionsAll rest

end

theorem mem_mentionsAll {cs : List Condition} {name : String} :
    name ∈ mentionsAll cs ↔ ∃ c ∈ cs, name ∈ c.mentions := by
  induction cs with
  | nil => simp [mentionsAll]
  | cons c rest ih => simp [mentionsAll, ih]

/-! ## Conditions depend on what they mention -/

section Congruence

variable {links : Json → String → List Json} {params : List Json}
  {b b' : Bindings}

theorem resolve_congr {p : ValuePath}
    (h : b.lookup p.scope.name = b'.lookup p.scope.name) :
    b.resolve p = b'.resolve p := by
  rw [Bindings.resolve, Bindings.resolve, h]

/-- A name that is bound first reads alike wherever the others do. -/
theorem lookup_bound {name : String} {v : Json} {mentioned : List String}
    (h : ∀ other ∈ mentioned.filter (fun other => other ≠ name),
      b.lookup other = b'.lookup other) :
    ∀ other ∈ mentioned,
      List.lookup other ((name, v) :: b) = List.lookup other ((name, v) :: b') := by
  intro other hother
  by_cases hname : other = name
  · subst hname
    simp
  · have hbeq : (other == name) = false := by simpa using hname
    simp only [List.lookup_cons, hbeq]
    exact h other (List.mem_filter.mpr ⟨hother, by simpa using hname⟩)

mutual

/-- What a condition comes to depends on what it mentions. -/
theorem value_congr [TextLibrary] : ∀ (c : Condition) {b b' : Bindings},
    (∀ name ∈ c.mentions, b.lookup name = b'.lookup name) →
    c.value links params b = c.value links params b'
  | const _, _, _, _ => rfl
  | all parts, _, _, h => congrArg Truth.all (values_congr parts h)
  | any parts, _, _, h => congrArg Truth.any (values_congr parts h)
  | neg part, _, _, h => congrArg Truth.not (value_congr part h)
  | present p, _, _, h | typeIs p _, _, _, h | whole p, _, _, h
  | test _ p _, _, _, h | among p _ _, _, _, h => by
      have hp := resolve_congr (p := p) (h _ List.mem_cons_self)
      simp only [value, hp]
  | choose cond yes otherwise, _, _, h => by
      simp only [mentions, List.forall_mem_append] at h
      obtain ⟨⟨hcond, hyes⟩, hotherwise⟩ := h
      simp only [value, value_congr cond hcond, value_congr yes hyes,
        value_congr otherwise hotherwise]
  | exist negated p members name part, _, _, h => by
      obtain ⟨hp, hpart⟩ := List.forall_mem_cons.mp h
      simp only [value, resolve_congr hp,
        fun v => value_congr part (lookup_bound (v := v) hpart)]
  | linked parent linkType join part, _, _, h => by
      obtain ⟨hparent, hpart⟩ := List.forall_mem_cons.mp h
      simp only [value, hparent,
        fun c => value_congr part (lookup_bound (v := c) hpart)]

theorem values_congr [TextLibrary] : ∀ (cs : List Condition) {b b' : Bindings},
    (∀ name ∈ mentionsAll cs, b.lookup name = b'.lookup name) →
    values links params cs b = values links params cs b'
  | [], _, _, _ => rfl
  | c :: rest, _, _, h => by
      obtain ⟨hfirst, hrest⟩ := List.forall_mem_append.mp h
      rw [values, values, value_congr c hfirst, values_congr rest hrest]

end

end Congruence

end Condition

/-! ## Conditions of joins -/

/-- The condition of a join. -/
inductive JoinCondition where
  /-- A row of the links table attaches to the parent. -/
  | attached (links parent linkType : String)
  /-- An active contract is at the far end and meets a condition. -/
  | farEnd (links parent joined : String) (part : Condition)

namespace JoinCondition

/-- The condition as it is written. -/
def text (tables : Tables) : JoinCondition → String
  | attached links parent linkType =>
      Sql.attached (ident links) (ident parent) (literal linkType)
  | farEnd links parent joined part =>
      Sql.farEnd (ident links) (ident parent) (ident joined) ++ " AND "
        ++ ident joined ++ ".\"active\" AND " ++ part.text tables

/-- The names the condition mentions. -/
def mentions : JoinCondition → List String
  | attached links parent _ => [links, parent]
  | farEnd links parent joined part => [links, parent, joined] ++ part.mentions

end JoinCondition

end Sql

open Sql

namespace Join

/-- The conditions of the two tables of a join, after `n` parameters. -/
def conditions (j : Join) (n : Nat) : JoinCondition × JoinCondition :=
  (.attached j.links j.parent j.linkType,
    .farEnd j.links j.parent j.name (j.condition.condition n))

end Join

/-! ## Filters without links -/

namespace Filter

theorem mem_mentions_conditions {fs : List Filter} {n : Nat} {name : String}
    (h : name ∈ Condition.mentionsAll (conditions fs n)) :
    ∃ f ∈ fs, ∃ m, name ∈ (f.condition m).mentions := by
  induction fs generalizing n with
  | nil => cases h
  | cons f rest ih =>
      rcases List.mem_append.mp h with h | h
      · exact ⟨f, List.mem_cons_self, n, h⟩
      · obtain ⟨g, hg, hmention⟩ := ih h
        exact ⟨g, List.mem_cons_of_mem f hg, hmention⟩

theorem mem_mentions_ofAll {fs : List Filter} {n : Nat} {name : String}
    (h : name ∈ ((ofAll fs).condition n).mentions) :
    ∃ f ∈ fs, ∃ m, name ∈ (f.condition m).mentions := by
  rw [ofAll] at h
  have kept {f : Filter} (hf : f ∈ fs.filter fun f => !f.isAlways) : f ∈ fs :=
    (List.mem_filter.mp hf).1
  split at h
  · cases h
  · next f heq => exact ⟨f, kept (by simp [heq]), n, h⟩
  · next =>
      obtain ⟨f, hf, hmention⟩ := mem_mentions_conditions h
      exact ⟨f, kept hf, hmention⟩

theorem Tests.mentions [TextLibrary] {path : ValuePath} {f : Filter} (h : f.Tests path)
    {n : Nat} {name : String} (hname : name ∈ (f.condition n).mentions) :
    name = path.scope.name := by
  cases h with
  | typeIs types =>
      obtain ⟨c, hc, hname⟩ := Condition.mem_mentionsAll.mp hname
      obtain ⟨t, -, rfl⟩ := List.mem_map.mp hc
      cases t <;> simpa [typeCondition, Condition.mentions] using hname
  | oneOf values =>
      cases values with
      | nil => cases hname
      | cons v rest => simpa [condition, Condition.mentions] using hname
  | _ => simpa [condition, Condition.mentions] using hname

/-- A quantifier binds the member that its part mentions. -/
theorem mem_mentions_member {path : ValuePath} {members : Members}
    {quantifier : Quantifier} {member name : String} {part : Condition}
    (hpart : ∀ other ∈ part.mentions, other = member)
    (h : name ∈ (memberCondition path members quantifier member part).mentions) :
    name = path.scope.name := by
  have bound : part.mentions.filter (fun other => other ≠ member) = [] :=
    List.filter_eq_nil_iff.mpr fun other hother => by
      simpa using hpart other hother
  cases quantifier <;>
    simpa only [memberCondition, Condition.mentions, bound, List.append_nil,
      List.cons_append, List.nil_append, List.mem_cons, List.not_mem_nil,
      or_false, or_self] using h

end Filter

namespace Schema

/-- A filter without links mentions what its path starts from only. -/
theorem Yields.mentions [TextLibrary] {s : Schema} {path : ValuePath} {p q : Plan}
    {fs : List Filter} (h : Yields s path p fs q)
    (hjoins : Filter.joinsAll fs = []) :
    ∀ f ∈ fs, ∀ n, ∀ name ∈ (f.condition n).mentions,
      name = path.scope.name := by
  induction h with
  | nothing | dropped => exact List.forall_mem_nil _
  | append _ _ first rest =>
      rw [Filter.joinsAll_append] at hjoins
      obtain ⟨hfirst, hrest⟩ := List.append_eq_nil_iff.mp hjoins
      exact List.forall_mem_append.mpr ⟨first hfirst, rest hrest⟩
  | always | never => exact List.forall_mem_singleton.mpr fun n _ => nofun
  | test hf =>
      exact List.forall_mem_singleton.mpr fun n name hname => hf.mentions hname
  | present =>
      exact List.forall_mem_singleton.mpr fun n name hname =>
        List.mem_singleton.mp hname
  | property h ih =>
      have inner := ih (h.joins_eq_nil (ValuePath.isRow_child _ _))
      simp only [propertyFilters]
      split
      · exact List.forall_mem_nil _
      · refine List.forall_mem_singleton.mpr fun n name hname => ?_
        obtain ⟨g, hg, m, hmention⟩ := Filter.mem_mentions_conditions hname
        rcases List.mem_cons.mp hg with rfl | hg
        · exact List.mem_singleton.mp hmention
        · exact inner g hg m name hmention
  | member members quantifier _ h ih =>
      have inner := ih (h.joins_eq_nil rfl)
      refine List.forall_mem_singleton.mpr fun n name hname => ?_
      exact Filter.mem_mentions_member
        (fun other hother => inner _ List.mem_cons_self n other hother) hname
  | ofAll _ ih =>
      have inner := ih (by simpa [Filter.joinsAll, Filter.joins_ofAll] using hjoins)
      refine List.forall_mem_singleton.mpr fun n name hname => ?_
      obtain ⟨f, hf, m, hname⟩ := Filter.mem_mentions_ofAll hname
      exact inner f hf m name hname
  | conj _ ih | disj _ ih =>
      have inner := ih (by simpa [Filter.joinsAll, Filter.joins] using hjoins)
      refine List.forall_mem_singleton.mpr fun n name hname => ?_
      obtain ⟨f, hf, m, hname⟩ := Filter.mem_mentions_conditions hname
      exact inner f hf m name hname
  | neg _ ih =>
      have inner := ih hjoins
      exact List.forall_mem_singleton.mpr fun n name hname =>
        inner _ List.mem_cons_self n name hname
  | branch _ _ ih => exact ih hjoins
  | link => cases hjoins

end Schema

end LinkedContracts
