import LinkedContracts.Compile
import LinkedContracts.Proofs.Schema.Induction
import LinkedContracts.Proofs.Stateful

/-! # What planning keeps

    A step of planning takes a plan to a result and a plan.  What holds of all
    the steps that compiling a schema is made of holds of compiling it:
    `compile_closed`.  A relation between plans that new member names and links
    keep is kept, whether compiling succeeds or fails; in particular the scopes
    in force are afterwards what they were. -/

namespace LinkedContracts

theorem ValuePath.isRow_child (path : ValuePath) (name : String) :
    (path.child name).isRow = false := by
  obtain ⟨scope, keys⟩ := path
  cases scope <;> cases keys <;> rfl

namespace Plan

open Stateful

/-- A relation that each way to change a plan keeps. -/
structure Stable (R : Plan → Plan → Prop) : Prop extends Steady R where
  freshMember : Keeps R Plan.freshMember
  addLink : ∀ linkType {step}, Keeps R step → Keeps R (Plan.addLink linkType step)

variable [TextLibrary]

/-- A property of steps of planning that what compiling a schema is made of
    has, and that steps put together have if each of them has it. -/
structure Closed (H : ∀ α : Type, Planning α → Prop) : Prop where
  pure : ∀ {α : Type} (a : α), H α (Pure.pure a)
  get : H Plan MonadState.get
  bind : ∀ {α β : Type} {x : Planning α} {g : α → Planning β},
    H α x → (∀ a, H β (g a)) → H β (x >>= g)
  strings : ∀ kw path, H _ (liftM (Schema.stringFilters kw path) : Planning _)
  misplaced : ∀ keys, H (List Filter) (throw (.misplacedLinks keys))
  freshMember : H String Plan.freshMember
  addLink : ∀ linkType {step}, H Filter step → H _ (Plan.addLink linkType step)

theorem Stable.closed {R : Plan → Plan → Prop} (h : Stable R) :
    Closed fun _ x => Keeps R x where
  pure := h.pure
  get := h.get
  bind := h.bind
  strings _ _ := h.lift _
  misplaced _ := h.throw _
  freshMember := h.freshMember
  addLink := h.addLink

end Plan

namespace Schema

open Stateful

section

variable [TextLibrary]
variable {H : ∀ α : Type, Planning α → Prop} (h : Plan.Closed H)

include h

theorem compileMembers_closed {schema : Option Schema} (path : ValuePath)
    (members : Members) (quantifier : Quantifier)
    (ih : ∀ s ∈ schema.toList, ∀ path, H _ (compile s path)) :
    H _ (compileMembers schema path members quantifier) := by
  cases schema with
  | none => exact h.pure _
  | some s =>
      exact h.bind h.freshMember fun name =>
        h.bind (ih s (by simp) _) fun filter => h.pure _

theorem compileOthers_closed {schema : Option Schema} (path : ValuePath)
    (known : List String)
    (ih : ∀ s ∈ schema.toList, ∀ path, H _ (compile s path)) :
    H _ (compileOthers schema path known) := by
  cases schema with
  | none => exact h.pure _
  | some s =>
      simp only [compileOthers]
      split
      · exact h.pure _
      · exact h.bind h.freshMember fun name =>
          h.bind (ih s (by simp) _) fun filter => h.pure _

theorem compileFields_closed (fields : List (String × Schema))
    (path : ValuePath)
    (ih : ∀ s ∈ fields.map (·.2), ∀ path, H _ (compile s path)) :
    H _ (compileFields fields path) := by
  induction fields with
  | nil => exact h.pure _
  | cons field rest rec =>
      exact h.bind (ih _ (by simp) _) fun filter =>
        h.bind (rec fun s hs => ih s (by simp [hs])) fun filters => h.pure _

theorem compileProperties_closed {fields : Option (List (String × Schema))}
    (path : ValuePath)
    (ih : ∀ s ∈ Keywords.namedParts fields, ∀ path, H _ (compile s path)) :
    H _ (compileProperties fields path) := by
  cases fields with
  | none => exact h.pure _
  | some fields => exact compileFields_closed h fields path ih

theorem compileAll_closed (schemas : List Schema) (path : ValuePath)
    (ih : ∀ s ∈ schemas, ∀ path, H _ (compile s path)) :
    H _ (compileAll schemas path) := by
  induction schemas with
  | nil => exact h.pure _
  | cons s rest rec =>
      exact h.bind (ih s (by simp) path) fun filter =>
        h.bind (rec fun s hs => ih s (by simp [hs])) fun filters => h.pure _

theorem compileBranches_closed {branches : Option (List Schema)}
    (path : ValuePath)
    (ih : ∀ s ∈ branches.getD [], ∀ path, H _ (compile s path)) :
    H _ (compileBranches branches path) := by
  cases branches with
  | none => exact h.pure _
  | some schemas =>
      exact h.bind (compileAll_closed h schemas path ih) fun filters => h.pure _

theorem compileNot_closed {schema : Option Schema} (path : ValuePath)
    (ih : ∀ s ∈ schema.toList, ∀ path, H _ (compile s path)) :
    H _ (compileNot schema path) := by
  cases schema with
  | none => exact h.pure _
  | some s => exact h.bind (ih s (by simp) path) fun filter => h.pure _

theorem compileLinkTypes_closed (fields : List (String × Schema))
    (ih : ∀ s ∈ fields.map (·.2), ∀ path, H _ (compile s path)) :
    H _ (compileLinkTypes fields) := by
  induction fields with
  | nil => exact h.pure _
  | cons field rest rec =>
      refine h.bind h.get fun plan => h.bind (h.addLink _ ?_) fun added =>
        h.bind (rec fun s hs => ih s (by simp [hs])) fun filters => h.pure _
      exact h.bind h.get fun plan => ih _ (by simp) _

theorem compileLinks_closed {fields : Option (List (String × Schema))}
    (path : ValuePath)
    (ih : ∀ s ∈ Keywords.namedParts fields, ∀ path, H _ (compile s path)) :
    H _ (compileLinks fields path) := by
  cases fields with
  | none => exact h.pure _
  | some fields =>
      simp only [compileLinks]
      split
      · exact compileLinkTypes_closed h fields ih
      · exact h.misplaced _

/-- Compiling a schema has a property that all it is made of has. -/
theorem compile_closed (s : Schema) (path : ValuePath) :
    H _ (compile s path) := by
  induction s using Schema.induct generalizing path with
  | bool b => cases b <;> exact h.pure _
  | node kw ih =>
      simp only [Keywords.parts, List.mem_append, or_assoc] at ih
      rw [compile]
      exact h.bind (h.strings _ _) fun strings =>
        h.bind (compileMembers_closed h _ _ _ fun s hs => ih s (by simp [hs]))
          fun items =>
        h.bind (compileMembers_closed h _ _ _ fun s hs => ih s (by simp [hs]))
          fun contains =>
        h.bind (compileProperties_closed h _ fun s hs => ih s (by simp [hs]))
          fun properties =>
        h.bind (compileOthers_closed h _ _ fun s hs => ih s (by simp [hs]))
          fun others =>
        h.bind (compileBranches_closed h _ fun s hs => ih s (by simp [hs]))
          fun allOf =>
        h.bind (compileBranches_closed h _ fun s hs => ih s (by simp [hs]))
          fun anyOf =>
        h.bind (compileNot_closed h _ fun s hs => ih s (by simp [hs])) fun not =>
        h.bind (compileLinks_closed h _ fun s hs => ih s (by simp [hs]))
          fun links => h.pure _

end

/-- What members and links keep, compiling a schema keeps. -/
theorem compile_keeps [TextLibrary] {R : Plan → Plan → Prop} (h : Plan.Stable R) (s : Schema)
    (path : ValuePath) : Keeps R (compile s path) :=
  compile_closed h.closed s path

end Schema

/-! ## Scopes -/

namespace Plan

open Stateful

/-- A plan has a scope, and it is left as it was. -/
def SameScopes (p q : Plan) : Prop := p.scopes ≠ [] → q.scopes = p.scopes

@[simp] theorem scopes_enter (p : Plan) (linkType : String) :
    (p.enter linkType).scopes = p.scopes := rfl

@[simp] theorem scopes_push (p : Plan) (scope : String) :
    (p.push scope).scopes = scope :: p.scopes := rfl

@[simp] theorem scopes_leave (p : Plan) : p.leave.scopes = p.scopes := rfl

@[simp] theorem scopes_settle (p : Plan) (linkType : String) (index : Nat)
    (hoisted : Bool) (filter : Filter) :
    (p.settle linkType index hoisted filter).scopes = p.scopes := rfl

/-- Leaving a scope undoes entering it. -/
theorem scopes_pop {p : Plan} {scope : String} {rest : List String}
    (h : p.scopes = scope :: rest) (hrest : rest ≠ []) :
    p.pop.scopes = rest := by
  cases rest with
  | nil => exact absurd rfl hrest
  | cons s rest =>
      simp only [pop]
      rw [h]

/-- The name of the join that a link makes. -/
def joinName (p : Plan) (linkType : String) : String :=
  Join.nameOf (p.enter linkType).way

/-- The plan in which the filter of a link is planned. -/
def inside (p : Plan) (linkType : String) : Plan :=
  (p.enter linkType).push (p.joinName linkType)

theorem scopes_inside (p : Plan) (linkType : String) :
    (p.inside linkType).scopes = p.joinName linkType :: p.scopes := rfl

/-- Planning a link: its filter is planned inside, and the join is left
    again, whatever comes of it. -/
theorem run_addLink (linkType : String) (step : Planning Filter) (p : Plan) :
    (addLink linkType step).run p = match step.run (p.inside linkType) with
      | (.error e, r) => (.error e, r.pop.leave)
      | (.ok f, r) =>
          (.ok (p.joinName linkType, f),
            r.pop.leave.settle linkType (Join.under p.joins p.way linkType).length
              (p.joinCount < r.pop.leave.joinCount) f) := by
  simp only [addLink, within, ExceptT.run, inside, joinName]
  cases step ((p.enter linkType).push (Join.nameOf (p.enter linkType).way)) with
  | mk result r => cases result <;> rfl

/-- The plan after a link: its filter was planned inside, up to `r`. -/
def outside (p r : Plan) (linkType : String) (f : Filter) : Plan :=
  r.pop.leave.settle linkType (Join.under p.joins p.way linkType).length
    (p.joinCount < r.pop.leave.joinCount) f

/-- A link that succeeds has planned its filter inside. -/
theorem addLink_ok {linkType name : String} {step : Planning Filter}
    {p q : Plan} {f : Filter}
    (h : (addLink linkType step).run p = (.ok (name, f), q)) :
    name = p.joinName linkType
      ∧ ∃ r, step.run (p.inside linkType) = (.ok f, r)
        ∧ q = p.outside r linkType f := by
  rw [run_addLink] at h
  cases hs : step.run (p.inside linkType) with
  | mk result r =>
      rw [hs] at h
      cases result with
      | error e => cases h
      | ok g =>
          obtain ⟨h1, hq⟩ := Prod.mk.inj h
          obtain ⟨h2, rfl⟩ := Prod.mk.inj (Except.ok.inj h1)
          exact ⟨h2.symm, r, rfl, hq.symm⟩

theorem sameScopes_stable : Stable SameScopes where
  refl _ _ := rfl
  trans hpq hqr h := by
    have hq := hpq h
    rw [hqr (by rw [hq]; exact h), hq]
  freshMember _ _ := rfl
  addLink linkType step hstep := by
    intro p hp
    have hin := hstep (p.inside linkType) (by simp [scopes_inside])
    rw [scopes_inside] at hin
    rw [run_addLink]
    cases hs : step.run (p.inside linkType) with
    | mk result r =>
        rw [hs] at hin
        cases result with
        | error e => exact scopes_pop hin hp
        | ok f => exact scopes_pop hin hp

end Plan

end LinkedContracts
