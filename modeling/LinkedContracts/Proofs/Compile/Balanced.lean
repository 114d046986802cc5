import LinkedContracts.Proofs.Compile.Grown
import LinkedContracts.TextLibrary.AtHand

/-! # Plans kept in balance

    A link enters a join and a scope and leaves both, whether its filter is
    planned or not.  So planning leaves the scopes and the way of a plan as they
    were, at any depth.

    The way always leads somewhere: a join is made before the way goes on to
    it, and no join is ever taken away.  So whenever a link looks for the joins
    below the join at hand, there is one: `Safe` says so of each link on the
    way through a step of planning, also of one that fails.

    And a plan counts one join for each link of the filters it yields. -/

namespace LinkedContracts

open Stateful

namespace Join

theorem below?_append (tree : Dict (List Join)) (way more : List (String × Nat)) :
    below? tree (way ++ more) = (below? tree way).bind fun below => below? below more := by
  induction way generalizing tree with
  | nil => rfl
  | cons step rest ih =>
      obtain ⟨t, i⟩ := step
      simp only [List.cons_append, below?]
      cases ((Dict.find? tree t).getD [])[i]? with
      | none => rfl
      | some j => exact ih j.nested

end Join

namespace Plan

open Join

variable {p q : Plan} {linkType : String}

/-! ## Ways that lead somewhere -/

/-- The way of a plan leads to a join, or stays at the root. -/
def Grounded (p : Plan) : Prop := (below? p.joins p.way).isSome = true

/-- Each entry of such a way names a join that is there. -/
theorem Grounded.entry (h : p.Grounded) {before after : List (String × Nat)}
    {t : String} {i : Nat} (hway : p.way = before ++ (t, i) :: after) :
    ∃ j, (under p.joins before t)[i]? = some j := by
  obtain ⟨_, hend⟩ := Option.isSome_iff_exists.mp h
  rw [hway, below?_append] at hend
  obtain ⟨below, hbelow, hrest⟩ := Option.bind_eq_some_iff.mp hend
  obtain ⟨j, hj, -⟩ := Option.bind_eq_some_iff.mp hrest
  exact ⟨j, by rw [under_eq hbelow, hj]⟩

theorem grounded_start (table : String) : (start table).Grounded := rfl

/-- What changes neither the joins nor the way leaves it leading somewhere. -/
theorem Grounded.congr (h : p.Grounded) (hjoins : q.joins = p.joins)
    (hway : q.way = p.way) : q.Grounded := by
  rw [Grounded, hjoins, hway]
  exact h

theorem Grounded.push (h : p.Grounded) (scope : String) : (p.push scope).Grounded := h

theorem joins_pop (p : Plan) : p.pop.joins = p.joins := by
  rw [pop]
  split <;> rfl

theorem way_pop (p : Plan) : p.pop.way = p.way := by
  rw [pop]
  split <;> rfl

theorem joinCount_pop (p : Plan) : p.pop.joinCount = p.joinCount := by
  rw [pop]
  split <;> rfl

theorem Grounded.pop (h : p.Grounded) : p.pop.Grounded :=
  h.congr p.joins_pop p.way_pop

/-- The way goes on to a join that was just made. -/
theorem Grounded.inside (h : p.Grounded) (linkType : String) :
    (p.inside linkType).Grounded := by
  obtain ⟨below, hbelow⟩ := Option.isSome_iff_exists.mp h
  show (below? (updateUnder (fun js => js ++ [p.begun linkType]) p.joins p.way linkType)
    (p.way ++ [(linkType, (under p.joins p.way linkType).length)])).isSome = true
  rw [updateUnder_eq, under_eq hbelow, below?_updateAt hbelow]
  exact Option.isSome_of_eq_some (below?_addTo below (p.begun linkType))

/-- A way that goes back leads somewhere still. -/
theorem Grounded.leave (h : p.Grounded) : p.leave.Grounded := by
  show (below? p.joins p.way.dropLast).isSome = true
  by_cases hway : p.way = []
  · rw [hway]
    rfl
  · obtain ⟨_, hend⟩ := Option.isSome_iff_exists.mp h
    rw [← List.dropLast_concat_getLast hway, below?_append] at hend
    obtain ⟨below, hbelow, -⟩ := Option.bind_eq_some_iff.mp hend
    exact Option.isSome_of_eq_some hbelow

/-- Settling a join leaves it where it is. -/
theorem Grounded.settle (h : p.Grounded) (linkType : String) (index : Nat)
    (hoisted : Bool) (f : Filter) : (p.settle linkType index hoisted f).Grounded := by
  obtain ⟨below, hbelow⟩ := Option.isSome_iff_exists.mp h
  show (below? (updateUnder _ p.joins p.way linkType) p.way).isSome = true
  -- Only what is below the end of the way changes, so that the way still ends there.
  have hend := below?_updateAt (f := fun d => Dict.insert d linkType
    (((Dict.find? d linkType).getD []).modify index fun j =>
      { j with filter := f, hoisted := hoisted })) hbelow []
  rw [List.append_nil] at hend
  rw [updateUnder_eq, hend]
  rfl

/-! ## Looking for joins -/

/-- From a plan, a step of planning looks for joins only below joins that are
    there.  A link looks for those of its type below the join at hand before its
    filter is planned, which looks only below joins that are there itself, and
    after that. -/
inductive Safe : ∀ {α : Type}, Planning α → Plan → Prop where
  | pure {α : Type} (a : α) (p : Plan) : Safe (Pure.pure a) p
  | get (p : Plan) : Safe MonadState.get p
  | lift {α : Type} (x : Except Error α) (p : Plan) : Safe (liftM x : Planning α) p
  | throw {α : Type} (e : Error) (p : Plan) :
      Safe (MonadExcept.throw e : Planning α) p
  | freshMember (p : Plan) : Safe Plan.freshMember p
  | bind {α β : Type} {x : Planning α} {g : α → Planning β} {p : Plan}
      (first : Safe x p)
      (rest : ∀ a q, x.run p = (.ok a, q) → Safe (g a) q) : Safe (x >>= g) p
  | addLink {linkType : String} {step : Planning Filter} {p : Plan}
      (before : p.Grounded) (within : Safe step (p.inside linkType))
      (after : (step.run (p.inside linkType)).2.pop.leave.Grounded) :
      Safe (Plan.addLink linkType step) p

/-- From a plan whose way leads somewhere, a step looks for joins only below
    joins that are there, and the way leads somewhere afterwards. -/
def StaysGrounded {α : Type} (x : Planning α) : Prop :=
  ∀ p : Plan, p.Grounded → Safe x p ∧ (x.run p).2.Grounded

theorem staysGrounded_bind {α β : Type} {x : Planning α} {g : α → Planning β}
    (hx : StaysGrounded x) (hg : ∀ a, StaysGrounded (g a)) :
    StaysGrounded (x >>= g) := by
  intro p hp
  obtain ⟨first, hq⟩ := hx p hp
  rw [run_bind]
  cases hrun : x.run p with
  | mk result q =>
      rw [hrun] at hq
      cases result with
      | error e =>
          -- Planning ends here, and the plan made so far remains.
          refine ⟨.bind first fun a r ha => ?_, hq⟩
          rw [hrun] at ha
          cases ha
      | ok a =>
          refine ⟨.bind first fun b r hb => ?_, (hg a q hq).2⟩
          rw [hrun] at hb
          cases hb
          exact (hg a q hq).1

theorem staysGrounded_addLink (linkType : String) {step : Planning Filter}
    (hstep : StaysGrounded step) : StaysGrounded (addLink linkType step) := by
  intro p hp
  obtain ⟨within, hr⟩ := hstep (p.inside linkType) (hp.inside linkType)
  have after := hr.pop.leave
  refine ⟨.addLink hp within after, ?_⟩
  rw [run_addLink]
  cases hrun : step.run (p.inside linkType) with
  | mk result r =>
      rw [hrun] at after
      cases result with
      | error e => exact after
      | ok f => exact after.settle _ _ _ f

theorem staysGrounded_closed [TextLibrary] : Closed fun _ x => StaysGrounded x where
  pure a p hp := ⟨.pure a p, hp⟩
  get p hp := ⟨.get p, hp⟩
  bind := staysGrounded_bind
  strings _ _ p hp := ⟨.lift _ p, hp⟩
  misplaced _ p hp := ⟨.throw _ p, hp⟩
  freshMember p hp := ⟨.freshMember p, hp⟩
  addLink := staysGrounded_addLink

/-! ## Ways -/

/-- Planning leaves the way as it was. -/
theorem way_stable : Stable fun p q => q.way = p.way where
  refl _ := rfl
  trans hpq hqr := hqr.trans hpq
  freshMember _ := rfl
  addLink linkType step hstep := by
    intro p
    have hback : (step.run (p.inside linkType)).2.pop.leave.way = p.way := by
      show (step.run (p.inside linkType)).2.pop.way.dropLast = p.way
      rw [way_pop, hstep (p.inside linkType)]
      exact List.dropLast_concat
    rw [run_addLink]
    cases hrun : step.run (p.inside linkType) with
    | mk result r =>
        rw [hrun] at hback
        cases result with
        | error e => exact hback
        | ok f => exact hback

end Plan

namespace Schema

open Plan

/-- Compiling a schema on the row at hand has what compiling is made of has. -/
theorem compileRow_closed [TextLibrary] {H : ∀ α : Type, Planning α → Prop} (h : Closed H)
    (s : Schema) : H _ (compileRow s) :=
  h.bind h.get fun p => compile_closed h s (.row p.scope)

/-- A filter of a property refers to the joins that the filter under its guard
    refers to. -/
theorem joinsAll_propertyFilters (path : ValuePath) (f : Filter) :
    Filter.joinsAll (propertyFilters path f) = Filter.joinsAll [f] := by
  rw [Filter.joinsAll_eq [], linksWithinAll_propertyFilters, ← Filter.joinsAll_eq]

/-- One join is counted for each link of the filters that are yielded. -/
theorem Yields.joinCount [TextLibrary] {s : Schema} {path : ValuePath} {p q : Plan}
    {fs : List Filter} (h : Yields s path p fs q) :
    q.joinCount = p.joinCount + (Filter.joinsAll fs).length := by
  induction h with
  | nothing | always | never | present => rfl
  | test hf => cases hf <;> rfl
  | append _ _ first rest =>
      rw [rest, first, Filter.joinsAll_append, List.length_append, Nat.add_assoc]
  | property _ ih => rw [ih, joinsAll_propertyFilters]
  | member _ _ _ _ ih => exact ih
  | dropped _ h ih =>
      -- Only filters of values are dropped, and links are asked of rows only.
      rw [h.joins_eq_nil rfl] at ih
      exact ih
  | ofAll _ ih => simpa [Filter.joinsAll, Filter.joins_ofAll] using ih
  | conj _ ih | disj _ ih => simpa [Filter.joinsAll, Filter.joins] using ih
  | neg _ ih => exact ih
  | branch _ _ ih => exact ih
  | @link _ _ _ p r f linkType _ _ _ _ ih =>
      have hinside : (p.inside linkType).joinCount = p.joinCount := rfl
      show r.pop.joinCount + 1 = _
      rw [joinCount_pop, ih, hinside]
      simp [Filter.joinsAll, Filter.joins, Nat.add_assoc]

end Schema

/-! ## Plans that are reached -/

namespace Plan

open Schema

variable {p q : Plan} {linkType : String}

/-- A plan that is reached from a start by entering and leaving scopes, naming
    members, planning links and compiling schemas, between these steps or where
    the filter of a link is planned, and whatever came of them. -/
inductive Reached [TextLibrary] : Plan → Prop where
  | start (table : String) : Reached (start table)
  | push {p : Plan} (h : Reached p) (scope : String) : Reached (p.push scope)
  | pop {p : Plan} (h : Reached p) : Reached p.pop
  | inside {p : Plan} (h : Reached p) (linkType : String) : Reached (p.inside linkType)
  | freshMember {p : Plan} (h : Reached p) : Reached (freshMember.run p).2
  | compileRow {p : Plan} (h : Reached p) (s : Schema) : Reached ((compileRow s).run p).2
  | addLink {p : Plan} (h : Reached p) (linkType : String) (s : Schema) :
      Reached ((addLink linkType (compileRow s)).run p).2

/-- There is a scope, and the way leads somewhere. -/
structure Standing (p : Plan) : Prop where
  scopes : p.scopes ≠ []
  grounded : p.Grounded

/-- What a step of planning that keeps scopes leaves standing. -/
theorem Standing.run {α : Type} {x : Planning α} (h : p.Standing)
    (hscopes : Keeps SameScopes x) (hgrounded : StaysGrounded x) :
    (x.run p).2.Standing where
  scopes := by
    rw [hscopes p h.scopes]
    exact h.scopes
  grounded := (hgrounded p h.grounded).2

section

variable [TextLibrary]

theorem compileRow_sameScopes (s : Schema) : Keeps SameScopes (compileRow s) :=
  compileRow_closed sameScopes_stable.closed s

theorem compileRow_staysGrounded (s : Schema) : StaysGrounded (compileRow s) :=
  compileRow_closed staysGrounded_closed s

theorem Reached.standing (h : p.Reached) : p.Standing := by
  induction h with
  | start table => exact ⟨by simp [Plan.start], grounded_start table⟩
  | push _ scope ih => exact ⟨by simp, ih.grounded.push scope⟩
  | @pop p _ ih =>
      -- The scope of the root is never left.
      refine ⟨?_, ih.grounded.pop⟩
      rw [Plan.pop]
      split
      · simp
      · exact ih.scopes
  | inside _ linkType ih =>
      exact ⟨by simp [scopes_inside], ih.grounded.inside linkType⟩
  | freshMember _ ih =>
      exact ih.run sameScopes_stable.freshMember staysGrounded_closed.freshMember
  | compileRow _ s ih =>
      exact ih.run (compileRow_sameScopes s) (compileRow_staysGrounded s)
  | addLink _ linkType s ih =>
      exact ih.run (sameScopes_stable.addLink linkType (compileRow_sameScopes s))
        (staysGrounded_addLink linkType (compileRow_staysGrounded s))

/-! ## Balance -/

/-- From a plan, a step of planning leaves the scopes and the way as they were,
    whatever comes of it, looks for joins only below joins that are there, and
    counts the joins of what it gives. -/
structure Balanced {α : Type} (links : α → Nat) (x : Planning α) (p : Plan) : Prop where
  scopes : (x.run p).2.scopes = p.scopes
  way : (x.run p).2.way = p.way
  safe : Safe x p
  counted : ∀ a q, x.run p = (.ok a, q) → q.joinCount = p.joinCount + links a

/-- The joins of a schema that compiles are those of its filter. -/
theorem joinCount_of_compileRow {s : Schema} {f : Filter}
    (h : (compileRow s).run p = (.ok f, q)) :
    q.joinCount = p.joinCount + f.joins.length := by
  obtain ⟨_, _, hget, h⟩ := bind_ok h
  obtain ⟨rfl, rfl⟩ := Prod.mk.inj hget |>.imp_left Except.ok.inj
  simpa [Filter.joinsAll] using (yields s h).joinCount

/-- The joins of a link are those of its filter and its own. -/
theorem joinCount_of_addLink {s : Schema} {found : String × Filter}
    (h : (addLink linkType (compileRow s)).run p = (.ok found, q)) :
    q.joinCount = p.joinCount + (found.2.joins.length + 1) := by
  obtain ⟨name, f⟩ := found
  obtain ⟨-, r, hrun, rfl⟩ := addLink_ok h
  have hinside : (p.inside linkType).joinCount = p.joinCount := rfl
  show r.pop.joinCount + 1 = _
  rw [joinCount_pop, joinCount_of_compileRow hrun, hinside, Nat.add_assoc]

/-- Compiling a schema on the row at hand, or planning a link to contracts that
    meet it, keeps a plan in balance, whether it succeeds or fails.  In each plan
    that is reached, also where the filter of a link is planned, every entry of
    the way names a join that is there. -/
theorem balanced_of_reached (h : p.Reached) (s : Schema) (linkType : String) :
    Balanced (fun f => f.joins.length) (compileRow s) p
      ∧ Balanced (fun found => found.2.joins.length + 1) (addLink linkType (compileRow s)) p
      ∧ ∀ (before after : List (String × Nat)) (t : String) (i : Nat),
          p.way = before ++ (t, i) :: after →
            ∃ j, (Join.under p.joins before t)[i]? = some j := by
  have hp := h.standing
  refine ⟨?_, ?_, fun before after t i => hp.grounded.entry⟩
  · exact
      { scopes := compileRow_sameScopes s p hp.scopes
        way := compileRow_closed way_stable.closed s p
        safe := (compileRow_staysGrounded s p hp.grounded).1
        counted := fun f q => joinCount_of_compileRow }
  · have hsafe := staysGrounded_addLink linkType (compileRow_staysGrounded s) p hp.grounded
    exact
      { scopes := sameScopes_stable.addLink linkType (compileRow_sameScopes s) p hp.scopes
        way := way_stable.addLink linkType (compileRow_closed way_stable.closed s) p
        safe := hsafe.1
        counted := fun found q => joinCount_of_addLink }

end

/-- Below a join and in a scope of its own, links within links are counted as
    two joins, and a schema that fails two links further down leaves the scopes
    and the way of the plan as they were. -/
theorem balanced_of_reached_nested :
    let owned (s : Schema) : Schema := .node { links := some [("is owned by", s)] }
    let failing : Schema := owned (.node { properties := some [("data", owned (.bool true))] })
    let p := ((Plan.start "cards").inside "is owned by").push "elsewhere"
    (∃ f q, (compileRow (owned (owned (.bool true)))).run p = (.ok f, q)
      ∧ f.joins.length = 2 ∧ q.joinCount = p.joinCount + 2
      ∧ q.scopes = p.scopes ∧ q.way = [("is owned by", 0)])
    ∧ (∃ q, (addLink "is member of" (compileRow failing)).run p
        = (.error (.misplacedLinks ["data"]), q)
      ∧ q.scopes = p.scopes ∧ q.way = [("is owned by", 0)])
    ∧ ∃ j, (Join.under p.joins [] "is owned by")[0]? = some j := by
  intro owned failing p
  have reached : p.Reached := .push (.inside (.start "cards") "is owned by") "elsewhere"
  obtain ⟨nested, -, entry⟩ := balanced_of_reached reached (owned (owned (.bool true))) ""
  obtain ⟨-, below, -⟩ := balanced_of_reached reached failing "is member of"
  have hway : p.way = [("is owned by", 0)] := rfl
  have hjoins : ((compileRow (owned (owned (.bool true)))).run p).1.toOption.map
      (fun f => f.joins.length) = some 2 := by
    decide +kernel
  have hfails : ((addLink "is member of" (compileRow failing)).run p).1
      = .error (.misplacedLinks ["data"]) := rfl
  refine ⟨?_, ⟨_, Prod.ext hfails rfl, below.scopes, below.way.trans hway⟩,
    entry [] [] "is owned by" 0 rfl⟩
  -- of the filter only the number of joins is needed
  obtain ⟨hscopes, hkept, -, hcounted⟩ := nested
  generalize (compileRow (owned (owned (.bool true)))).run p = result
    at hjoins hscopes hkept hcounted
  obtain ⟨f | f, q⟩ := result
  · cases hjoins
  · have htwo : f.joins.length = 2 := Option.some.inj hjoins
    exact ⟨f, q, rfl, htwo, htwo ▸ hcounted f q rfl, hscopes, hkept.trans hway⟩

end Plan

end LinkedContracts
