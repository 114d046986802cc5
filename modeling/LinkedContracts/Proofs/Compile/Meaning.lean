import LinkedContracts.Proofs.Compile.Keywords
import LinkedContracts.Proofs.Compile.Planning
import LinkedContracts.TextLibrary.AtHand

/-! # What compiled schemas mean

    A filter compiled from a schema holds exactly when the schema, read
    directly, is met.  The induction is over schemas.  What carries it is
    that a path always starts from the innermost scope: where the filter of
    a part is decided, the value the part is about is bound last, so that a
    name given twice cannot stand for the wrong value. -/

namespace LinkedContracts

open Stateful

/-- A plan has a scope, and a path that is a whole row starts from it. -/
structure Plan.Serves (p : Plan) (path : ValuePath) : Prop where
  started : p.scopes ≠ []
  row : path.isRow = true → path.scope.name = p.scope

namespace Plan.Serves

variable {p q : Plan} {path : ValuePath}

/-- The scopes alone decide which paths a plan serves. -/
theorem keep (h : p.Serves path) (hq : q.scopes = p.scopes) :
    q.Serves path := by
  refine ⟨by rw [hq]; exact h.started, fun hrow => ?_⟩
  rw [h.row hrow, scope, scope, hq]

/-- A step that keeps the scopes leaves a plan that serves the same
    paths. -/
theorem after {α : Type} {x : Planning α} {a : α} (h : p.Serves path)
    (hx : Keeps SameScopes x) (hrun : x.run p = (.ok a, q)) : q.Serves path := by
  have hq := hx p h.started
  rw [hrun] at hq
  exact h.keep hq

theorem child (h : p.Serves path) (name : String) :
    p.Serves (path.child name) := by
  refine ⟨h.started, fun hrow => ?_⟩
  obtain ⟨scope, keys⟩ := path
  cases scope <;> cases keys <;> cases hrow

theorem member (h : p.Serves path) (name : String) :
    p.Serves (.member name) :=
  ⟨h.started, nofun⟩

/-- Inside a join the joined row is served. -/
theorem inside (p : Plan) (linkType : String) :
    (p.inside linkType).Serves (.row (p.inside linkType).scope) :=
  ⟨by simp [scopes_inside], fun _ => rfl⟩

end Plan.Serves

namespace Schema

open LinkedContracts.Filter

variable {links : Json → String → List Json} {b : Bindings}
  {path : ValuePath} {v : Json} {p q : Plan} {fs : List Filter}

section

variable [TextLibrary]

/-- What a schema compiles to holds exactly where the schema is met. -/
def Faithful (links : Json → String → List Json) (s : Schema) : Prop :=
  ∀ {path : ValuePath} {p q : Plan} {f : Filter},
    (compile s path).run p = (.ok f, q) → p.Serves path →
    ∀ {b : Bindings} {v : Json}, b.resolve path = some v →
      f.answer links b = s.meets links path.place v

/-- Compiling a schema leaves the scopes as they were. -/
theorem keeps_scopes (s : Schema) (path : ValuePath) :
    Keeps Plan.SameScopes (compile s path) :=
  compile_keeps Plan.sameScopes_stable s path

/-- The members of an array, all of them or some. -/
theorem answer_compileMembers {schema : Option Schema}
    (ih : ∀ s ∈ schema.toList, Faithful links s) {quantifier : Quantifier}
    (h : (compileMembers schema path .items quantifier).run p = (.ok fs, q))
    (hp : p.Serves path) {items : List Json}
    (hv : b.resolve path = some (.array items)) :
    fs.all (fun f => f.answer links b)
      = match quantifier with
        | .all => eachMeets links schema (some items)
        | .some => someMeets links schema (some items) := by
  cases schema with
  | none =>
      obtain ⟨rfl, -⟩ := pure_ok h
      cases quantifier <;> rfl
  | some s =>
      obtain ⟨name, r, hr, h⟩ := bind_ok h
      obtain ⟨f, t, hf, h⟩ := bind_ok h
      obtain ⟨rfl, -⟩ := pure_ok h
      have hr : r.Serves path := hp.keep (by cases hr; rfl)
      have member (item : Json) : f.answer links ((name, item) :: b)
          = s.meets links .value item :=
        ih s (by simp) hf (hr.member name) (Bindings.resolve_member name item b)
      cases quantifier with
      | all => simp [answer_each_all, hv, Members.of?, member, eachMeets]
      | some => simp [answer_each_some, hv, Members.of?, member, someMeets]

/-- The other properties of an object.  They are not asked of a contract. -/
theorem answer_compileOthers {schema : Option Schema}
    (ih : ∀ s ∈ schema.toList, Faithful links s) {known : List String}
    (h : (compileOthers schema path known).run p = (.ok fs, q))
    (hp : p.Serves path) (hv : b.resolve path = some v) :
    fs.all (fun f => f.answer links b)
      = eachMeets links schema (path.place.others? known v) := by
  cases schema with
  | none =>
      obtain ⟨rfl, -⟩ := pure_ok h
      rfl
  | some s =>
      simp only [compileOthers] at h
      split at h
      · next hskip =>
          obtain ⟨rfl, -⟩ := pure_ok h
          rcases Bool.or_eq_true_iff.mp hskip with hrow | htrue
          · rw [ValuePath.place_of_row hrow]
            rfl
          · obtain rfl := eq_of_isTrue htrue
            cases path.place.others? known v <;> simp [eachMeets, meets]
      · next hskip =>
          obtain ⟨name, r, hr, h⟩ := bind_ok h
          obtain ⟨f, t, hf, h⟩ := bind_ok h
          obtain ⟨rfl, -⟩ := pure_ok h
          have hr : r.Serves path := hp.keep (by cases hr; rfl)
          have member (v : Json) : f.answer links ((name, v) :: b)
              = s.meets links .value v :=
            ih s (by simp) hf (hr.member name) (Bindings.resolve_member name v b)
          have hplace : path.place = .value := ValuePath.place_of_value
            (by cases hrow : path.isRow <;> simp_all)
          rw [List.all_cons, List.all_nil, Bool.and_true, answer_each_all, hv,
            hplace]
          cases v <;> simp [Members.of?, member, eachMeets, Place.others?]

/-- The properties of a list. -/
theorem answer_compileFields {fields : List (String × Schema)}
    (ih : ∀ s ∈ fields.map (·.2), Faithful links s)
    (h : (compileFields fields path).run p = (.ok fs, q))
    (hp : p.Serves path) (hv : b.resolve path = some v) :
    fs.all (fun f => f.answer links b)
      = fieldsMeet links fields path.place v := by
  induction fields generalizing p q fs with
  | nil =>
      obtain ⟨rfl, -⟩ := pure_ok h
      rfl
  | cons field rest rec =>
      obtain ⟨name, s⟩ := field
      obtain ⟨f, r, hf, h⟩ := bind_ok h
      obtain ⟨others, t, ho, h⟩ := bind_ok h
      obtain ⟨rfl, -⟩ := pure_ok h
      have hr : r.Serves path := hp.after (keeps_scopes s _) hf
      have own : (propertyFilters (path.child name) f).all
            (fun f => f.answer links b)
          = (path.place.property? v name).all
              fun child => meets links s .value child := by
        have hc := Bindings.resolve_child hv name
        have child {w : Json} (hw : path.place.property? v name = some w) :
            f.answer links b = s.meets links .value w := by
          rw [ih s (by simp) hf (hp.child name) (hc.trans hw),
            ValuePath.place_child]
        simp only [propertyFilters]
        split
        · next halways =>
            cases hw : path.place.property? v name with
            | none => rfl
            | some w => simp [← child hw, eq_always halways]
        · next =>
            cases hw : path.place.property? v name with
            | none => simp [hc, hw]
            | some w => simp [hc, hw, child hw]
      rw [List.all_append, own, rec (fun s hs => ih s (by simp [hs])) ho hr]
      rfl

/-- The properties. -/
theorem answer_compileProperties {fields : Option (List (String × Schema))}
    (ih : ∀ s ∈ Keywords.namedParts fields, Faithful links s)
    (h : (compileProperties fields path).run p = (.ok fs, q))
    (hp : p.Serves path) (hv : b.resolve path = some v) :
    fs.all (fun f => f.answer links b)
      = propertiesMeet links fields path.place v := by
  cases fields with
  | none =>
      obtain ⟨rfl, -⟩ := pure_ok h
      rfl
  | some fields => exact answer_compileFields ih h hp hv

/-- The schemas of a list, all of them and some of them. -/
theorem answer_compileAll {schemas : List Schema}
    (ih : ∀ s ∈ schemas, Faithful links s)
    (h : (compileAll schemas path).run p = (.ok fs, q))
    (hp : p.Serves path) (hv : b.resolve path = some v) :
    fs.map (fun f => f.answer links b)
      = schemas.map fun s => s.meets links path.place v := by
  induction schemas generalizing p q fs with
  | nil =>
      obtain ⟨rfl, -⟩ := pure_ok h
      rfl
  | cons s rest rec =>
      obtain ⟨f, r, hf, h⟩ := bind_ok h
      obtain ⟨others, t, ho, h⟩ := bind_ok h
      obtain ⟨rfl, -⟩ := pure_ok h
      have hr : r.Serves path := hp.after (keeps_scopes s _) hf
      rw [List.map_cons, ih s (by simp) hf hp hv,
        rec (fun s hs => ih s (by simp [hs])) ho hr, List.map_cons]

/-- The branches, all of them and some of them. -/
theorem answer_compileBranches {branches : Option (List Schema)}
    (ih : ∀ s ∈ branches.getD [], Faithful links s)
    {found : Option (List Filter)}
    (h : (compileBranches branches path).run p = (.ok found, q))
    (hp : p.Serves path) (hv : b.resolve path = some v) :
    (found.toList.map Filter.conj).all (fun f => f.answer links b)
        = allMeet links branches path.place v
      ∧ (found.toList.map Filter.disj).all (fun f => f.answer links b)
        = anyMeets links branches path.place v := by
  cases branches with
  | none =>
      obtain ⟨rfl, -⟩ := pure_ok h
      exact ⟨rfl, rfl⟩
  | some schemas =>
      obtain ⟨fs, r, hfs, h⟩ := bind_ok h
      obtain ⟨rfl, -⟩ := pure_ok h
      have hall : fs.map (fun f => f.answer links b)
          = schemas.map fun s => s.meets links path.place v :=
        answer_compileAll ih hfs hp hv
      constructor
      · have h := congrArg (fun l => l.all id) hall
        simpa [List.all_map, Function.comp_def, allMeet, everyMeets_eq] using h
      · have h := congrArg (fun l => l.any id) hall
        simpa [List.any_map, Function.comp_def, anyMeets, oneMeets_eq] using h

/-- The negated schema. -/
theorem answer_compileNot {schema : Option Schema}
    (ih : ∀ s ∈ schema.toList, Faithful links s)
    (h : (compileNot schema path).run p = (.ok fs, q))
    (hp : p.Serves path) (hv : b.resolve path = some v) :
    fs.all (fun f => f.answer links b) = notMeets links schema path.place v := by
  cases schema with
  | none =>
      obtain ⟨rfl, -⟩ := pure_ok h
      rfl
  | some s =>
      obtain ⟨f, r, hf, h⟩ := bind_ok h
      obtain ⟨rfl, -⟩ := pure_ok h
      simp [notMeets, ih s (by simp) hf hp hv]

/-- The link types of a list, on the contract bound to the scope.  Below a
    join the linked contract is bound last, to the name of the join. -/
theorem answer_compileLinkTypes {fields : List (String × Schema)}
    (ih : ∀ s ∈ fields.map (·.2), Faithful links s)
    (h : (compileLinkTypes fields).run p = (.ok fs, q))
    (hp : p.scopes ≠ []) (hv : b.lookup p.scope = some v) :
    fs.all (fun f => f.answer links b) = linkTypesMeet links fields v := by
  induction fields generalizing p q fs with
  | nil =>
      obtain ⟨rfl, -⟩ := pure_ok h
      rfl
  | cons field rest rec =>
      obtain ⟨linkType, s⟩ := field
      obtain ⟨_, _, hget, h⟩ := bind_ok h
      obtain ⟨rfl, rfl⟩ := Prod.mk.inj hget |>.imp_left Except.ok.inj
      obtain ⟨⟨name, f⟩, r, hadd, h⟩ := bind_ok h
      obtain ⟨others, t, ho, h⟩ := bind_ok h
      obtain ⟨rfl, -⟩ := pure_ok h
      obtain ⟨rfl, u, hstep, -⟩ := Plan.addLink_ok hadd
      obtain ⟨_, _, hget, hstep⟩ := bind_ok hstep
      obtain ⟨rfl, rfl⟩ := Prod.mk.inj hget |>.imp_left Except.ok.inj
      have hr : r.scopes = p.scopes := by
        have kept := Plan.sameScopes_stable.addLink linkType
          (Plan.sameScopes_stable.bind Plan.sameScopes_stable.get
            fun plan => keeps_scopes s (.row plan.scope)) p hp
        rw [hadd] at kept
        exact kept
      have joined (c : Json) : f.answer links ((p.joinName linkType, c) :: b)
          = s.meets links .contract c :=
        ih s (by simp) hstep (Plan.Serves.inside p linkType)
          (Bindings.resolve_row (p.joinName linkType) c b)
      have hscope : r.scope = p.scope := by rw [Plan.scope, hr, Plan.scope]
      rw [List.all_cons, answer_linked _ _ _ _ _ hv,
        rec (fun s hs => ih s (by simp [hs])) ho (by rwa [hr]) (by rwa [hscope]),
        linkTypesMeet]
      simp only [joined]

/-- The links. -/
theorem answer_compileLinks {fields : Option (List (String × Schema))}
    (ih : ∀ s ∈ Keywords.namedParts fields, Faithful links s)
    (h : (compileLinks fields path).run p = (.ok fs, q))
    (hp : p.Serves path) (hv : b.resolve path = some v) :
    fs.all (fun f => f.answer links b) = linksMeet links fields path.place v := by
  cases fields with
  | none =>
      obtain ⟨rfl, -⟩ := pure_ok h
      rfl
  | some fields =>
      simp only [compileLinks] at h
      split at h
      · next hrow =>
          rw [ValuePath.place_of_row hrow]
          refine answer_compileLinkTypes ih h hp.started ?_
          rw [← hp.row hrow]
          exact Bindings.lookup_of_isRow hv hrow
      · cases h

/-! ## Whole schemas -/

/-- The keywords for arrays, which say nothing of other values. -/
theorem answer_arrayKeywords (kw : Keywords Schema)
    (hv : b.resolve path = some v) {items contains : List Filter}
    (hitems : ∀ values, v = .array values →
      items.all (fun f => f.answer links b)
        = eachMeets links kw.items (some values))
    (hcontains : ∀ values, v = .array values →
      contains.all (fun f => f.answer links b)
        = someMeets links kw.contains (some values)) :
    (onlyFor .array path (items ++ contains ++ countFilters kw path)).answer
        links b
      = (eachMeets links kw.items (path.place.items? v)
        && someMeets links kw.contains (path.place.items? v)
        && (path.place.items? v).all fun values =>
          kw.minItems.all (fun n => n ≤ values.length)
            && kw.maxItems.all (fun n => values.length ≤ n)) := by
  have none_each : eachMeets links kw.items none = true := by
    cases kw.items <;> rfl
  have none_some : someMeets links kw.contains none = true := by
    cases kw.contains <;> rfl
  rw [answer_onlyFor hv, List.all_append, List.all_append]
  cases path.place with
  | contract => simp [Place.items?, none_each, none_some]
  | value =>
      cases v with
      | array values =>
          simp [JsonType.holds, Place.items?, hitems values rfl,
            hcontains values rfl, answer_countFilters kw hv]
      | _ => simp [JsonType.holds, Place.items?, none_each, none_some]

/-- What has no properties meets the schemas of any. -/
theorem propertiesMeet_of_none {place : Place}
    (hnone : ∀ name, place.property? v name = none) :
    ∀ fields, propertiesMeet links fields place v = true
  | none => rfl
  | some fields => by
      rw [propertiesMeet]
      induction fields with
      | nil => rfl
      | cons field rest ih => simp [fieldsMeet, hnone, ih]

/-- The keywords for objects, which say nothing of other values. -/
theorem answer_objectKeywords (kw : Keywords Schema)
    (hv : b.resolve path = some v) {properties others : List Filter}
    (hproperties : properties.all (fun f => f.answer links b)
      = propertiesMeet links kw.properties path.place v)
    (hothers : others.all (fun f => f.answer links b)
      = eachMeets links kw.additionalProperties
        (path.place.others? (knownNames kw) v)) :
    (onlyFor .object path (requiredFilters kw path ++ properties ++ others)).answer
        links b
      = ((!path.place.hasType v .object || (kw.required.getD []).all fun name =>
          (path.place.property? v name).isSome)
        && propertiesMeet links kw.properties path.place v
        && eachMeets links kw.additionalProperties
          (path.place.others? (knownNames kw) v)) := by
  have none_each : eachMeets links kw.additionalProperties none = true := by
    cases kw.additionalProperties <;> rfl
  rw [answer_onlyFor hv, List.all_append, List.all_append,
    answer_requiredFilters kw hv, hproperties, hothers]
  cases path.place with
  | contract => simp [Place.hasType]
  | value =>
      cases v with
      | object fields => simp [JsonType.holds, Place.hasType]
      | _ =>
          rw [propertiesMeet_of_none fun name => rfl]
          simp [JsonType.holds, Place.hasType, Place.others?, none_each]

/-- What a schema compiles to holds exactly where the schema is met. -/
theorem faithful (links : Json → String → List Json) (s : Schema) :
    Faithful links s := by
  induction s using Schema.induct with
  | bool accepts =>
      intro path p q f h hp b v hv
      cases accepts <;> obtain ⟨rfl, -⟩ := pure_ok h <;> simp [meets]
  | node kw ih =>
      simp only [Keywords.parts, List.mem_append, or_assoc] at ih
      intro path p q f h hp b v hv
      rw [compile] at h
      obtain ⟨strings, r0, h0, h⟩ := bind_ok h
      have hstrings : stringFilters kw path = .ok strings := congrArg Prod.fst h0
      obtain rfl : p = r0 := congrArg Prod.snd h0
      obtain ⟨items, r1, h1, h⟩ := bind_ok h
      obtain ⟨contains, r2, h2, h⟩ := bind_ok h
      obtain ⟨properties, r3, h3, h⟩ := bind_ok h
      obtain ⟨others, r4, h4, h⟩ := bind_ok h
      obtain ⟨allOf, r5, h5, h⟩ := bind_ok h
      obtain ⟨anyOf, r6, h6, h⟩ := bind_ok h
      obtain ⟨not, r7, h7, h⟩ := bind_ok h
      obtain ⟨types, r8, h8, h⟩ := bind_ok h
      obtain ⟨rfl, -⟩ := pure_ok h
      have closed := Plan.sameScopes_stable.closed
      have hr1 := hp.after
        (compileMembers_closed closed _ _ _ fun s _ => keeps_scopes s) h1
      have hr2 := hr1.after
        (compileMembers_closed closed _ _ _ fun s _ => keeps_scopes s) h2
      have hr3 := hr2.after
        (compileProperties_closed closed _ fun s _ => keeps_scopes s) h3
      have hr4 := hr3.after
        (compileOthers_closed closed _ _ fun s _ => keeps_scopes s) h4
      have hr5 := hr4.after
        (compileBranches_closed closed _ fun s _ => keeps_scopes s) h5
      have hr6 := hr5.after
        (compileBranches_closed closed _ fun s _ => keeps_scopes s) h6
      have hr7 := hr6.after
        (compileNot_closed closed _ fun s _ => keeps_scopes s) h7
      have arrays := answer_arrayKeywords kw hv
        (fun values h => answer_compileMembers (fun s hs => ih s (by simp [hs]))
          h1 hp (h ▸ hv))
        (fun values h => answer_compileMembers (fun s hs => ih s (by simp [hs]))
          h2 hr1 (h ▸ hv))
      have objects := answer_objectKeywords kw hv
        (answer_compileProperties (fun s hs => ih s (by simp [hs])) h3 hr2 hv)
        (answer_compileOthers (fun s hs => ih s (by simp [hs])) h4 hr3 hv)
      have all := answer_compileBranches (fun s hs => ih s (by simp [hs])) h5 hr4 hv
      have any := answer_compileBranches (fun s hs => ih s (by simp [hs])) h6 hr5 hv
      have negated := answer_compileNot (fun s hs => ih s (by simp [hs])) h7 hr6 hv
      have linked := answer_compileLinks (fun s hs => ih s (by simp [hs])) h8 hr7 hv
      rw [answer_ofAll]
      simp only [List.all_append, List.all_cons, List.all_nil, Bool.and_true,
        answer_valueFilters kw hv, answer_searchFilters kw hv, arrays, objects,
        all.1, any.2, negated, linked]
      rw [meets, Keywords.plainMeets, ← answer_scalars hv hstrings]
      ac_rfl

/-- The filter of a row holds exactly where the schema is met. -/
theorem answer_compileRow {s : Schema} {table : String} {f : Filter}
    {plan : Plan} (h : (compileRow s).run (Plan.start table) = (.ok f, plan))
    (links : Json → String → List Json) (c : Json) :
    f.answer links [(table, c)] = s.meets links .contract c := by
  obtain ⟨_, _, hget, h⟩ := bind_ok h
  obtain ⟨rfl, rfl⟩ := Prod.mk.inj hget |>.imp_left Except.ok.inj
  have serves : (Plan.start table).Serves (.row (Plan.start table).scope) :=
    ⟨by simp [Plan.start], fun _ => rfl⟩
  exact faithful links s h serves (Bindings.resolve_row table c [])

/-- Compiling is correct: where the linked contracts are always known, the
    filter of a schema decides every contract, and holds of those that meet
    the schema. -/
theorem matchContract_compileRow {s : Schema} {table : String} {f : Filter}
    {plan : Plan} (h : (compileRow s).run (Plan.start table) = (.ok f, plan))
    (links : Json → String → List Json) (c : Json) :
    ∃ found, f.matchContract (.known links) table c = .ok found
      ∧ (found.isSome = true ↔ s.meets links .contract c = true) := by
  refine ⟨_, matchContract_known f table c, ?_⟩
  rw [← answer_compileRow h links c]
  cases f.answer links [(table, c)] <;> simp

end

/-- The filter of links below links is decided for a contract that is linked
    to one with the link asked for. -/
theorem matchContract_compileRow_nested :
    let named (slug : String) : Schema := .node
      { properties := some [("slug", .node { const := some (.string slug) })] }
    let s : Schema := .node
      { links := some [("is owned by", .node
        { links := some [("is member of", named "org-a")] })] }
    let contract (slug : String) : Json := .object [("slug", .string slug)]
    let links (c : Json) (linkType : String) : List Json :=
      match c.stringField? "slug", linkType with
      | some "card", "is owned by" => [contract "user-a"]
      | some "user-a", "is member of" => [contract "org-b", contract "org-a"]
      | _, _ => []
    ∃ f plan, (compileRow s).run (Plan.start "cards") = (.ok f, plan)
      ∧ (∃ found, f.matchContract (.known links) "cards" (contract "card")
          = .ok found
        ∧ (found.isSome = true
          ↔ s.meets links .contract (contract "card") = true))
      ∧ s.meets links .contract (contract "card") = true := by
  intro named s contract links
  exact ⟨_, _, rfl, matchContract_compileRow rfl links (contract "card"),
    by decide +kernel⟩

end Schema

end LinkedContracts
