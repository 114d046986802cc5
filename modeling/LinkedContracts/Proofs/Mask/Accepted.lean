import LinkedContracts.Mask
import LinkedContracts.Proofs.Compile.Meaning
import LinkedContracts.Proofs.Compile.Success
import LinkedContracts.Proofs.Json.Depth
import LinkedContracts.TextLibrary.AtHand

/-! # What a mask accepts

    What a mask forbids, and what it says of a property, is read off the mask
    and not off the filter it compiles to.  Inside a contract the two agree: an
    object that the filter accepts has no property that the mask forbids, and
    the value of each property is accepted by the part of the mask that is
    about it.  So redaction leaves an accepted value as it is.

    Of a whole contract this is not true: the schema for other properties is not
    asked of a row, where it only says what may be seen. -/

namespace LinkedContracts

open Stateful

variable {links : Json → String → List Json} {kw : Keywords Schema} {place : Place}
  {fields : Dict Json} {key : String} {v w : Json}

namespace Schema

/-! ## What is met -/

variable [TextLibrary]

/-- What is asked of a property that is there is met. -/
theorem meets_of_fieldsMeet {named : List (String × Schema)} {s : Schema}
    (h : fieldsMeet links named place v = true) (hs : (key, s) ∈ named)
    (hw : place.property? v key = some w) : s.meets links .value w = true := by
  induction named with
  | nil => cases hs
  | cons field rest ih =>
      obtain ⟨name, t⟩ := field
      rw [fieldsMeet, Bool.and_eq_true] at h
      rcases List.mem_cons.mp hs with heq | hs
      · obtain ⟨rfl, rfl⟩ := Prod.mk.inj heq
        simpa [hw] using h.1
      · exact ih h.2 hs

/-- What accepts something is not the schema that accepts nothing. -/
theorem isFalse_of_meets {s : Schema} (h : s.meets links place v = true) :
    s.isFalse = false := by
  cases hfalse : s.isFalse with
  | false => rfl
  | true =>
      rw [eq_of_isFalse hfalse, meets] at h
      cases h

/-- What meets a schema meets what is asked of its properties, all of the
    branches of a conjunction and one of those of a disjunction. -/
theorem meets_parts (h : (node kw).meets links place v = true) :
    propertiesMeet links kw.properties place v = true
      ∧ eachMeets links kw.additionalProperties (place.others? (knownNames kw) v) = true
      ∧ (∀ s ∈ kw.allOf.getD [], s.meets links place v = true)
      ∧ ∀ branches, kw.anyOf = some branches →
        ∃ s ∈ branches, s.meets links place v = true := by
  rw [meets] at h
  simp only [Bool.and_eq_true] at h
  obtain ⟨⟨⟨⟨⟨⟨-, hproperties⟩, hothers⟩, hall⟩, hany⟩, -⟩, -⟩ := h
  refine ⟨hproperties, hothers, ?_, ?_⟩
  · intro s hs
    cases hbranches : kw.allOf with
    | none => simp [hbranches] at hs
    | some branches =>
        rw [hbranches, allMeet, everyMeets_eq] at hall
        rw [hbranches] at hs
        exact List.all_eq_true.mp hall s hs
  · intro branches hbranches
    rw [hbranches, anyMeets, oneMeets_eq] at hany
    exact List.any_eq_true.mp hany

/-! ## What compiles -/

theorem compilesInside_part (h : (node kw).CompilesInside) :
    (∀ s, Mask.ownPart kw key = some s → s.CompilesInside)
      ∧ (∀ s ∈ kw.allOf.getD [], s.CompilesInside)
      ∧ ∀ s ∈ kw.anyOf.getD [], s.CompilesInside := by
  have hpath : (ValuePath.member "").isRow = false := rfl
  obtain ⟨hproperties, hothers, hall, hany⟩ := total_parts (h _ hpath)
  refine ⟨?_, ?_, ?_⟩
  · intro s hs
    rw [Mask.ownPart] at hs
    split at hs
    next t ht =>
      obtain rfl := Option.some.inj hs
      obtain ⟨named, hnamed, hfind⟩ := Option.bind_eq_some_iff.mp ht
      rw [hnamed] at hproperties
      exact compilesInside_of_compileFields hproperties (Dict.mem_of_find? hfind)
    next =>
      rw [hs] at hothers
      exact compilesInside_of_compileOthers hpath hothers
  · exact fun s hs => compilesInside_of_total hpath (hall s hs)
  · exact fun s hs => compilesInside_of_total hpath (hany s hs)

end Schema

namespace Mask

open Schema

/-! ## Parts of a mask -/

theorem someForbids_eq (branches : List Schema) (key : String) :
    someForbids branches key = branches.any (forbids · key) := by
  induction branches with
  | nil => rfl
  | cons s rest ih => rw [someForbids, ih, List.any_cons]

theorem everyForbids_eq (branches : List Schema) (key : String) :
    everyForbids branches key = branches.all (forbids · key) := by
  induction branches with
  | nil => rfl
  | cons s rest ih => rw [everyForbids, ih, List.all_cons]

theorem properties_eq (branches : List Schema) (key : String) :
    properties branches key = branches.map (property · key) := by
  induction branches with
  | nil => rfl
  | cons s rest ih => rw [properties, ih, List.map_cons]

theorem conjuncts_eq (branches : Option (List Schema)) (key : String) :
    conjuncts branches key = (branches.getD []).map (property · key) := by
  cases branches with
  | none => rfl
  | some branches => exact properties_eq branches key

theorem mem_disjuncts {branches : Option (List Schema)} {s : Schema}
    (h : s ∈ disjuncts branches key) :
    ∃ schemas, branches = some schemas ∧ s = .disj (schemas.map (property · key)) := by
  cases branches with
  | none => cases h
  | some schemas =>
      cases schemas with
      | nil => cases h
      | cons t rest =>
          refine ⟨t :: rest, rfl, ?_⟩
          rw [← properties_eq (t :: rest)]
          exact List.mem_singleton.mp h

/-- The parts that a mask says of a property. -/
theorem forall_mem_property {P : Schema → Prop} (htogether : ∀ parts : List Schema,
      (∀ s ∈ parts, P s) → P (together parts))
    (hown : ∀ s, ownPart kw key = some s → P s)
    (hall : ∀ s ∈ kw.allOf.getD [], P (property s key))
    (hany : ∀ branches, kw.anyOf = some branches →
      P (.disj (branches.map (property · key)))) :
    P (property (.node kw) key) := by
  refine htogether _ fun s hs => ?_
  rcases List.mem_append.mp hs with hs | hs
  · rcases List.mem_append.mp hs with hs | hs
    · exact hown s (Option.mem_toList.mp hs)
    · rw [conjuncts_eq] at hs
      obtain ⟨t, ht, rfl⟩ := List.mem_map.mp hs
      exact hall t ht
  · obtain ⟨branches, hbranches, rfl⟩ := mem_disjuncts hs
    exact hany branches hbranches

/-- A property is not forbidden if nothing that a mask asks forbids it. -/
theorem forbids_eq_false (hown : ∀ s, ownPart kw key = some s → s.isFalse = false)
    (hall : ∀ s ∈ kw.allOf.getD [], forbids s key = false)
    (hany : ∀ branches, kw.anyOf = some branches → ∃ s ∈ branches, forbids s key = false) :
    forbids (.node kw) key = false := by
  rw [forbids, Bool.or_eq_false_iff, Bool.or_eq_false_iff]
  refine ⟨⟨?_, ?_⟩, ?_⟩
  · cases hs : ownPart kw key with
    | none => rfl
    | some s => exact hown s hs
  · cases hbranches : kw.allOf with
    | none => rfl
    | some branches =>
        rw [hbranches] at hall
        rw [anyForbids, someForbids_eq, List.any_eq_false]
        exact fun s hs => by simp [hall s hs]
  · cases hbranches : kw.anyOf with
    | none => rfl
    | some branches =>
        obtain ⟨s, hs, hvisible⟩ := hany branches hbranches
        rw [allForbid, everyForbids_eq, Bool.and_eq_false_iff, List.all_eq_false]
        exact .inr ⟨s, hs, by simp [hvisible]⟩

section

variable [TextLibrary]

theorem meets_together {parts : List Schema}
    (h : ∀ s ∈ parts, s.meets links place v = true) :
    (together parts).meets links place v = true := by
  cases parts with
  | nil => rw [together, meets]
  | cons s rest =>
      cases rest with
      | nil => exact h s List.mem_cons_self
      | cons t rest =>
          show (Schema.conj (s :: t :: rest)).meets links place v = true
          rw [meets_conj]
          exact List.all_eq_true.mpr h

theorem compilesInside_together {parts : List Schema}
    (h : ∀ s ∈ parts, s.CompilesInside) : (together parts).CompilesInside := by
  cases parts with
  | nil => exact compilesInside_bool true
  | cons s rest =>
      cases rest with
      | nil => exact h s List.mem_cons_self
      | cons t rest => exact compilesInside_conj h

/-! ## Properties of an object that meets a mask -/

/-- What a mask asks of a property, by name or as one of the others, is met. -/
theorem meets_ownPart (h : (Schema.node kw).meets links .value (.object fields) = true)
    (hw : Dict.find? fields key = some w) {s : Schema} (hs : ownPart kw key = some s) :
    s.meets links .value w = true := by
  obtain ⟨hproperties, hothers, -, -⟩ := meets_parts h
  rw [ownPart] at hs
  split at hs
  next t ht =>
    obtain rfl := Option.some.inj hs
    obtain ⟨named, hnamed, hfind⟩ := Option.bind_eq_some_iff.mp ht
    rw [hnamed] at hproperties
    exact meets_of_fieldsMeet hproperties (Dict.mem_of_find? hfind) hw
  next hnone =>
    have hunknown : key ∉ knownNames kw := by
      rw [knownNames]
      cases hnamed : kw.properties with
      | none => exact List.not_mem_nil
      | some named =>
          rw [hnamed] at hnone
          exact Dict.find?_eq_none.mp hnone
    have hother : (key, w) ∈ fields.filter fun p => p.1 ∉ knownNames kw :=
      List.mem_filter.mpr ⟨Dict.mem_of_find? hw, by simpa using hunknown⟩
    rw [hs] at hothers
    exact List.all_eq_true.mp hothers w (List.mem_map_of_mem hother)

/-- A property of an object that meets a mask is not forbidden, and its value
    meets the part of the mask that is about it. -/
theorem meets_property (mask : Schema) (h : mask.meets links .value (.object fields) = true)
    (hw : Dict.find? fields key = some w) :
    forbids mask key = false ∧ (property mask key).meets links .value w = true := by
  induction mask using Schema.induct with
  | bool accepts =>
      obtain rfl : accepts = true := by rwa [meets] at h
      exact ⟨rfl, rfl⟩
  | node kw ih =>
      simp only [Keywords.parts, List.mem_append, or_assoc] at ih
      obtain ⟨-, -, hall, hany⟩ := meets_parts h
      have hown (s : Schema) (hs : ownPart kw key = some s) :
          s.meets links .value w = true := meets_ownPart h hw hs
      have hbranches (s : Schema) (hs : s ∈ kw.allOf.getD []) :=
        ih s (by simp [hs]) (hall s hs)
      -- one branch of a disjunction is met, and it alone counts
      have hbranch (branches : List Schema) (hsome : kw.anyOf = some branches) :
          ∃ s ∈ branches, forbids s key = false
            ∧ (property s key).meets links .value w = true := by
        obtain ⟨s, hs, hmeets⟩ := hany branches hsome
        exact ⟨s, hs, ih s (by simp [hsome, hs]) hmeets⟩
      constructor
      · refine forbids_eq_false ?_ ?_ ?_
        · exact fun s hs => isFalse_of_meets (hown s hs)
        · exact fun s hs => (hbranches s hs).1
        · intro branches hsome
          obtain ⟨s, hs, hvisible, -⟩ := hbranch branches hsome
          exact ⟨s, hs, hvisible⟩
      · refine forall_mem_property (fun parts => meets_together) hown ?_ ?_
        · exact fun s hs => (hbranches s hs).2
        · intro branches hsome
          obtain ⟨s, hs, -, hmeets⟩ := hbranch branches hsome
          rw [meets_disj, List.any_map]
          exact List.any_eq_true.mpr ⟨s, hs, hmeets⟩

/-- The part of a mask that is about a property compiles if the mask does. -/
theorem compilesInside_property {mask : Schema} (h : mask.CompilesInside) (key : String) :
    (property mask key).CompilesInside := by
  induction mask using Schema.induct with
  | bool accepts => exact compilesInside_bool accepts
  | node kw ih =>
      simp only [Keywords.parts, List.mem_append, or_assoc] at ih
      obtain ⟨hown, hall, hany⟩ := compilesInside_part h
      refine forall_mem_property (fun parts => compilesInside_together) hown ?_ ?_
      · exact fun s hs => ih s (by simp [hs]) (hall s hs)
      · intro branches hsome
        refine compilesInside_disj (List.forall_mem_map.mpr fun s hs => ?_)
        exact ih s (by simp [hsome, hs]) (hany s (by simp [hsome, hs]))

end

/-! ## Redaction -/

theorem redactFields_eq_self {mask : Schema}
    (h : ∀ p ∈ fields, forbids mask p.1 = false
      ∧ redactValue p.2 (property mask p.1) = p.2) :
    redactFields fields mask = fields := by
  induction fields with
  | nil => rfl
  | cons p rest ih =>
      obtain ⟨name, value⟩ := p
      obtain ⟨⟨hvisible, hkept⟩, hrest⟩ := List.forall_mem_cons.mp h
      rw [redactFields, if_neg (by simp [hvisible]), hkept, ih hrest]

/-- A value that meets a mask is left as it is. -/
theorem redactValue_of_meets [TextLibrary] (hv : v.WellFormed) {mask : Schema}
    (h : mask.meets links .value v = true) : redactValue v mask = v := by
  induction v using Json.induct generalizing mask with
  | object fields ih =>
      have hsorted : Dict.Sorted fields := hv.self
      rw [redactValue, redactFields_eq_self]
      intro p hp
      have hfind : Dict.find? fields p.1 = some p.2 := hsorted.find?_eq_some.mpr hp
      obtain ⟨hvisible, hmeets⟩ := meets_property mask h hfind
      exact ⟨hvisible, ih p hp (hv.of_field hp) hmeets⟩
  | _ => rfl

end Mask

/-! ## Where values are accepted -/

/-- A place inside a contract where a value is: a path below a row of a plan,
    with something bound to the scope that it starts from. -/
structure Spot (v : Json) where
  plan : Plan
  path : ValuePath
  bindings : Bindings
  started : plan.scopes ≠ []
  inside : path.isRow = false
  resolves : bindings.resolve path = some v

namespace Spot

theorem serves (spot : Spot v) : spot.plan.Serves spot.path :=
  ⟨spot.started, fun hrow => by simp [spot.inside] at hrow⟩

/-- The place of the value of a property. -/
def member (spot : Spot (.object fields)) (h : Dict.find? fields key = some w) : Spot w where
  plan := spot.plan
  path := spot.path.child key
  bindings := spot.bindings
  started := spot.started
  inside := spot.path.isRow_child key
  resolves := by
    rw [Bindings.resolve_child spot.resolves, ValuePath.place_of_value spot.inside]
    exact h

variable [TextLibrary]

/-- What a schema compiles to in a place accepts the value there. -/
def Accepts (links : Json → String → List Json) (spot : Spot v) (s : Schema) : Prop :=
  ∃ f q, (s.compile spot.path).run spot.plan = (.ok f, q)
    ∧ ∃ o, f.eval (.known links) spot.bindings = .ok o ∧ o.holds = true

/-- A value is accepted wherever it is, or nowhere. -/
theorem accepts_iff (spot : Spot v) {s : Schema} :
    spot.Accepts links s ↔ s.CompilesInside ∧ s.meets links .value v = true := by
  have hplace : spot.path.place = .value := ValuePath.place_of_value spot.inside
  constructor
  · rintro ⟨f, q, hrun, o, heval, hholds⟩
    refine ⟨Schema.compilesInside_of_run spot.inside hrun, ?_⟩
    rw [← hplace, ← Schema.faithful links s hrun spot.serves spot.resolves,
      Filter.answer_of_eval heval, hholds]
  · rintro ⟨hinside, hmeets⟩
    obtain ⟨f, q, hrun⟩ := hinside spot.path spot.inside spot.plan
    refine ⟨f, q, hrun, f.outcome links spot.bindings, Filter.eval_known f _, ?_⟩
    show f.answer links spot.bindings = true
    rw [Schema.faithful links s hrun spot.serves spot.resolves, hplace, hmeets]

end Spot

namespace Mask

/-- A mask for the data of a contract. -/
def onData (mask : Schema) : Schema := .node { properties := some [("data", mask)] }

/-- Redaction takes nothing away from the data of a contract that is accepted
    for its data.  An object that a mask accepts, wherever it is inside a
    contract, has no property that the mask forbids, and the part of the mask
    about a property accepts its value, wherever that is. -/
theorem redact_of_accepted [TextLibrary] (hv : v.WellFormed) (mask : Schema)
    (links : Json → String → List Json) :
    (∀ {table f plan found},
      (Schema.compileRow (onData mask)).run (Plan.start table) = (.ok f, plan) →
      f.matchContract (.known links) table (.object [("data", v)]) = .ok (some found) →
      redact (.object [("data", v)]) (onData mask) = .object [("data", v)])
    ∧ ∀ {fields}, v = .object fields → ∀ spot : Spot v, spot.Accepts links mask →
      ∀ {key w}, (key, w) ∈ fields → forbids mask key = false
        ∧ ∀ spot : Spot w, spot.Accepts links (property mask key) := by
  constructor
  · intro table f plan found hrun hmatch
    have hmeets : (onData mask).meets links .contract (.object [("data", v)]) = true := by
      rw [← Schema.answer_compileRow hrun]
      rw [Filter.matchContract_known] at hmatch
      cases hholds : f.answer links [(table, .object [("data", v)])] with
      | true => rfl
      | false => simp [hholds] at hmatch
    have hdata : mask.meets links .value v = true := by
      obtain ⟨hproperties, -, -, -⟩ := Schema.meets_parts hmeets
      refine Schema.meets_of_fieldsMeet hproperties List.mem_cons_self ?_
      simp [Place.property?, ValuePath.columns, Json.field?, Dict.find?_cons]
    have hvisible : forbids (onData mask) "data" = false := by
      refine forbids_eq_false ?_ (List.forall_mem_nil _) fun branches h => by cases h
      intro s hs
      obtain rfl := Option.some.inj hs
      exact Schema.isFalse_of_meets hdata
    have hproperty : property (onData mask) "data" = mask := rfl
    rw [redact, redactRow, if_neg (by decide), if_neg (by simp [hvisible]), hproperty,
      redactValue_of_meets hv hdata, redactRow]
  · -- acceptance is met by the value and does not depend on where the value is
    rintro fields rfl spot haccepts key w hw
    have hfind : Dict.find? fields key = some w :=
      Dict.Sorted.find?_eq_some hv.self |>.mpr hw
    obtain ⟨hinside, hmeets⟩ := spot.accepts_iff.mp haccepts
    obtain ⟨hvisible, hproperty⟩ := meets_property mask hmeets hfind
    refine ⟨hvisible, fun spot => spot.accepts_iff.mpr ⟨?_, hproperty⟩⟩
    exact compilesInside_property hinside key

/-- A mask for the data of cards: an open card shows its owner by name, another
    does not say whether it is open. -/
def curated : Schema :=
  let owner := Schema.node
    { properties := some [("name", .node { types := some (.single .string) })]
      additionalProperties := some (.bool false) }
  let shown := Schema.node
    { properties := some [("open", .node { const := some (.bool true) }), ("owner", owner)]
      additionalProperties := some (.bool false) }
  .disj [shown, .node { properties := some [("open", .bool false)] }]

/-- The data of an open card. -/
def openCard : Json :=
  .object [("open", .bool true), ("owner", .object [("name", .string "guest")])]

theorem wellFormed_openCard : openCard.WellFormed := by
  have howner : (Json.object [("name", .string "guest")]).WellFormed := by
    refine Json.throughout_object (show Dict.Sorted _ by decide) ?_
    simp only [List.forall_mem_cons]
    exact ⟨Json.throughout_string trivial, nofun⟩
  refine Json.throughout_object (show Dict.Sorted _ by decide) ?_
  simp only [List.forall_mem_cons]
  exact ⟨Json.throughout_bool trivial, howner, nofun⟩

/-- The data of the open card are left as they are, and its owner is accepted
    by the part of the mask that is about owners. -/
theorem redact_of_accepted_curated :
    let links : Json → String → List Json := fun _ _ => []
    let card : Json := .object [("data", openCard)]
    let owner : Json := .object [("name", .string "guest")]
    (∃ f plan found, (Schema.compileRow (onData curated)).run (Plan.start "cards")
        = (.ok f, plan)
      ∧ f.matchContract (.known links) "cards" card = .ok (some found)
      ∧ redact card (onData curated) = card)
    ∧ ∃ spot : Spot openCard, spot.Accepts links curated
      ∧ forbids curated "owner" = false
      ∧ ∃ inner : Spot owner, inner.path = spot.path.child "owner"
        ∧ inner.Accepts links (property curated "owner") := by
  intro links card owner
  obtain ⟨hredact, haccepted⟩ := redact_of_accepted wellFormed_openCard curated links
  constructor
  · obtain ⟨f, plan, hrun⟩ : ∃ f plan, (Schema.compileRow (onData curated)).run
        (Plan.start "cards") = (.ok f, plan) := ok_of_isOk (by decide +kernel)
    have hmeets : f.answer links [("cards", card)] = true := by
      rw [Schema.answer_compileRow hrun]
      decide +kernel
    obtain ⟨found, hmatch⟩ : ∃ found,
        f.matchContract (.known links) "cards" card = .ok (some found) :=
      ⟨_, by rw [Filter.matchContract_known, if_pos hmeets]⟩
    exact ⟨f, plan, found, hrun, hmatch, hredact hrun hmatch⟩
  · let spot : Spot openCard :=
      { plan := Plan.start "cards"
        path := (ValuePath.row "cards").child "data"
        bindings := [("cards", card)]
        started := by simp [Plan.start]
        inside := rfl
        resolves := rfl }
    have hspot : spot.Accepts links curated := by
      obtain ⟨f, plan, hrun⟩ : ∃ f plan, (Schema.compile curated spot.path).run spot.plan
          = (.ok f, plan) := ok_of_isOk (by decide +kernel)
      have hinside := Schema.compilesInside_of_run spot.inside hrun
      exact spot.accepts_iff.mpr ⟨hinside, by decide +kernel⟩
    have howner : ("owner", owner) ∈ [("open", Json.bool true), ("owner", owner)] :=
      List.mem_cons_of_mem _ List.mem_cons_self
    have hfind : Dict.find? [("open", Json.bool true), ("owner", owner)] "owner"
        = some owner := rfl
    obtain ⟨hvisible, hinner⟩ := haccepted rfl spot hspot howner
    exact ⟨spot, hspot, hvisible, spot.member hfind, rfl, hinner _⟩

end Mask

end LinkedContracts
