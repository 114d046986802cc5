import LinkedContracts.Proofs.Kernel.Referred

/-! # What a mask lets through

    The mask of a session is put together from what is stored about its
    actor.  It accepts a contract exactly if one of the roles of the actor
    may read the contract, the actor knows all of its markers, and the
    session is not restricted from it.

    Roles and markers are gathered one by one, each once; what a mask says
    depends only on which there are. -/

namespace LinkedContracts

open Stateful

/-- What is made of the members of a list, if of each something is. -/
theorem mem_of_mapM_ok {α β : Type} {f : α → Except Error β} {l : List α}
    {bs : List β} (h : l.mapM f = .ok bs) (b : β) :
    b ∈ bs ↔ ∃ a ∈ l, f a = .ok b := by
  induction l generalizing bs with
  | nil =>
      obtain rfl := Except.ok.inj h
      simp
  | cons a rest ih =>
      rw [List.mapM_cons] at h
      obtain ⟨c, hc, h⟩ := except_bind_ok h
      obtain ⟨cs, hcs, h⟩ := except_bind_ok h
      obtain rfl := Except.ok.inj h
      have hfirst : f a = .ok b ↔ b = c := by
        rw [hc]
        exact ⟨fun h => (Except.ok.inj h).symm, fun h => congrArg _ h.symm⟩
      simp only [List.mem_cons, exists_eq_or_imp, hfirst, ih hcs]

namespace Mask

variable [TextLibrary]

/-- What masks ask of a marker: that it is a known one. -/
theorem meets_marker (links : Json → String → List Json) (markers : List String)
    (m : String) :
    (Schema.node { types := some (.single .string),
                   enum := some (markers.map Json.string) }).meets links .value
      (.string m) = markers.any (m == ·) := by
  have hequal : (Json.string m).equal ∘ Json.string = (m == ·) := by
    funext other
    simp [Json.equal, Json.equalBy]
  rw [Schema.meets]
  simp [Keywords.plainMeets, Keywords.scalarMeets, Keywords.stringMeets, TypeSet.toList,
    Place.hasType, JsonType.holds, Place.items?, Schema.eachMeets, Schema.someMeets,
    Schema.propertiesMeet, Schema.allMeet, Schema.anyMeets, Schema.notMeets,
    Schema.linksMeet, List.any_map, hequal]

/-- What masks ask of the markers of a contract: that each is a known one. -/
theorem meets_ofMarkers (links : Json → String → List Json) (markers : List String)
    (c : Contract) :
    (ofMarkers markers).meets links .contract c.toRow = true
      ↔ ∀ m ∈ c.markers, m ∈ markers := by
  have hmarkers : Place.contract.property? c.toRow "markers"
      = some (.array (c.markers.map .string)) := by
    simp [Place.property?, ValuePath.columns, Contract.toRow, Contract.rowFields,
      Json.field?, Dict.find?, Json.ofStrings]
  rw [ofMarkers, Schema.meets]
  simp only [Schema.propertiesMeet, Schema.fieldsMeet, hmarkers, Option.all_some]
  rw [Schema.meets]
  simp [Keywords.plainMeets, Keywords.scalarMeets, TypeSet.toList, Place.hasType,
    JsonType.holds, Place.items?, Schema.eachMeets, Schema.someMeets,
    Schema.propertiesMeet, Schema.allMeet, Schema.anyMeets, Schema.notMeets,
    Schema.linksMeet, meets_marker]

end Mask

namespace Kernel

variable {k : Kernel} {session : String} {mask : Schema} {a s c : Contract}

/-! ## Roles and markers -/

theorem mem_addNew {known : List String} {new s : String} :
    s ∈ addNew known new ↔ s ∈ known ∨ s = new := by
  rw [addNew]
  split
  · next h => exact ⟨.inl, fun h' => h'.elim id fun heq => heq ▸ h⟩
  · simp

/-- What is added is there, and what was there. -/
theorem mem_foldl_addNew {known new : List String} {s : String} :
    s ∈ new.foldl addNew known ↔ s ∈ known ∨ s ∈ new := by
  induction new generalizing known with
  | nil => simp
  | cons n rest ih => rw [List.foldl_cons, ih, mem_addNew, List.mem_cons, or_assoc]

/-- Whether an actor has a role: its own slug, or a text among its roles. -/
def HasRole (a : Contract) (role : String) : Prop :=
  role = a.slug
    ∨ ∃ items, a.data.field? "roles" = some (.array items) ∧ .string role ∈ items

/-- Whether an actor knows a marker: its own slug, or that of an organisation
    it is a member of. -/
def KnowsMarker (k : Kernel) (a : Contract) (marker : String) : Prop :=
  marker = a.slug
    ∨ ∃ orgs org, k.linked a.id membership = .ok orgs ∧ org ∈ orgs
      ∧ typeIs org.type "org" = true ∧ org.slug = marker

theorem mem_rolesOf {role : String} : role ∈ rolesOf a ↔ HasRole a role := by
  rw [rolesOf, mem_foldl_addNew, List.mem_singleton, HasRole]
  refine or_congr_right ?_
  cases hroles : a.data.field? "roles" with
  | none => simp
  | some j =>
      cases j with
      | array items =>
          have hstring (j : Json) : j.asString? = some role ↔ j = .string role := by
            cases j <;> simp [Json.asString?]
          simp [Json.asArray?, hstring]
      | _ => simp [Json.asArray?]

theorem mem_markersOf {orgs : List Contract} {marker : String}
    (horgs : k.linked a.id membership = .ok orgs) :
    marker ∈ markersOf a orgs ↔ k.KnowsMarker a marker := by
  rw [markersOf, mem_foldl_addNew, List.mem_singleton, KnowsMarker]
  refine or_congr_right ?_
  simp only [horgs, List.mem_map, List.mem_filter, and_assoc]
  constructor
  · rintro ⟨org, hmem, htype, hslug⟩
    exact ⟨orgs, org, rfl, hmem, htype, hslug⟩
  · rintro ⟨others, org, heq, hmem, htype, hslug⟩
    obtain rfl := Except.ok.inj heq
    exact ⟨org, hmem, htype, hslug⟩

/-- What a role lets its holders read is what its newest contract says, if
    that is active. -/
theorem Sound.readable_eq_some (hk : k.Sound) {role : String} {read : Json} :
    k.readable role = some read
      ↔ ∃ r, k.store.Newest ("role-" ++ role) r ∧ r.active = true
        ∧ r.data.field? "read" = some read := by
  simp only [readable, Option.bind_eq_some_iff, Option.filter_eq_some_iff, and_assoc,
    ← hk.store.find?_latest, Store.find?]

/-! ## Masks -/

/-- The session and the actor that a mask is made for. -/
structure ActsFor (k : Kernel) (session : String) (s a : Contract) : Prop where
  session : k.store.contract? session = some s
  actor : (s.data.stringField? "actor").bind k.store.contract? = some a

/-- Whether a role may read a contract: the newest contract of the role is
    active, and what it says may be read accepts the contract. -/
def MayRead [TextLibrary] (k : Kernel) (role : String) (c : Contract) : Prop :=
  ∃ r read schema, k.store.Newest ("role-" ++ role) r ∧ r.active = true
    ∧ r.data.field? "read" = some read ∧ Schema.ofJson read = .ok schema
    ∧ k.accepts schema c.toRow = .ok true

/-- Whether the restriction of a session, if it has one, leaves a contract. -/
def InScope [TextLibrary] (k : Kernel) (s c : Contract) : Prop :=
  ∀ fields, s.data.field? "scope" = some (.object fields) → fields ≠ [] →
    ∃ schema, Schema.ofJson (.object fields) = .ok schema
      ∧ k.accepts schema c.toRow = .ok true

/-- How the actor of a session is made up. -/
theorem actor_ok {actor : Actor} (h : k.actor session = .ok actor) :
    ∃ s orgs, k.ActsFor session s actor.contract
      ∧ k.linked actor.contract.id membership = .ok orgs
      ∧ actor.roles = rolesOf actor.contract
      ∧ actor.markers = markersOf actor.contract orgs
      ∧ scopeOf s = .ok actor.scope := by
  simp only [Kernel.actor] at h
  split at h
  · next s hs =>
      split at h
      · cases h
      split at h
      · cases h
      split at h
      · next id hid =>
          split at h
          · next contract hcontract =>
              obtain ⟨orgs, horgs, h⟩ := except_bind_ok h
              obtain ⟨scope, hscope, h⟩ := except_bind_ok h
              obtain rfl := Except.ok.inj h
              refine ⟨s, orgs, ⟨hs, ?_⟩, horgs, rfl, rfl, hscope⟩
              rw [hid]
              exact hcontract
          · cases h
      · cases h
  · cases h

/-- What restricts a session accepts what is in its scope. -/
theorem inScope_iff [TextLibrary] {scope : Option Schema} (h : scopeOf s = .ok scope) :
    k.InScope s c ↔ ∀ schema ∈ scope, k.accepts schema c.toRow = .ok true := by
  rw [scopeOf] at h
  split at h
  · next f fs hfields =>
      obtain ⟨schema, hschema, rfl⟩ : ∃ schema,
          Schema.ofJson (.object (f :: fs)) = .ok schema ∧ some schema = scope := by
        cases hread : Schema.ofJson (.object (f :: fs)) with
        | error e => rw [hread] at h; cases h
        | ok schema => rw [hread] at h; exact ⟨schema, rfl, Except.ok.inj h⟩
      constructor
      · intro hin other hother
        obtain rfl := Option.some.inj hother
        obtain ⟨schema', hschema', haccepts⟩ := hin _ hfields (List.cons_ne_nil _ _)
        obtain rfl := Except.ok.inj (hschema.symm.trans hschema')
        exact haccepts
      · intro hin fields hscope _
        obtain rfl := Json.object.inj (Option.some.inj (hfields.symm.trans hscope))
        exact ⟨schema, hschema, hin schema rfl⟩
  · next hnone =>
      obtain rfl := Except.ok.inj h
      refine iff_of_true (fun fields hscope hne => ?_) (by simp)
      obtain ⟨f, fs, rfl⟩ := List.exists_cons_of_ne_nil hne
      exact absurd hscope (hnone f fs)

/-- A mask accepts what one of the roles may read, if all markers are known
    and the restriction leaves it. -/
theorem Sound.accepts_maskOf [TextLibrary] (hk : k.Sound) {actor : Actor}
    (hmask : k.maskOf actor = .ok mask) (hcompiles : mask.Compiles) (c : Contract) :
    k.accepts mask c.toRow = .ok true
      ↔ (∃ role ∈ actor.roles, k.MayRead role c)
        ∧ (∀ m ∈ c.markers, m ∈ actor.markers)
        ∧ ∀ schema ∈ actor.scope, k.accepts schema c.toRow = .ok true := by
  obtain ⟨roles, hroles, hmask⟩ := except_bind_ok hmask
  have hmem (schema : Schema) : schema ∈ roles
      ↔ ∃ role ∈ actor.roles, ∃ read, k.readable role = some read
        ∧ Schema.ofJson read = .ok schema := by
    rw [mem_of_mapM_ok hroles]
    simp only [List.mem_filterMap]
    grind
  have hread : (∃ role ∈ actor.roles, k.MayRead role c)
      ↔ ∃ schema ∈ roles, k.accepts schema c.toRow = .ok true := by
    simp only [hmem, hk.readable_eq_some, MayRead]
    grind
  split at hmask
  · next hempty =>
      obtain rfl := Except.ok.inj hmask
      obtain rfl := List.isEmpty_iff.mp hempty
      rw [hread, hk.accepts_eq hcompiles]
      simp [Schema.meets]
  · obtain rfl := Except.ok.inj hmask
    -- each part compiles, and accepts what meets it
    have hparts := Schema.compiles_conj.mp hcompiles
    have hdisj := Schema.compiles_disj.mp (hparts (.disj roles) (by simp))
    have hscope (schema : Schema) (h : schema ∈ actor.scope) : schema.Compiles :=
      hparts schema (by simp [Option.mem_toList.mpr h])
    have haccepts {schema : Schema} (h : schema.Compiles) :
        k.accepts schema c.toRow = .ok true
          ↔ schema.meets k.store.rowsLinked .contract c.toRow = true := by
      rw [hk.accepts_eq h]
      exact ⟨Except.ok.inj, congrArg _⟩
    rw [haccepts hcompiles, Schema.meets_conj, hread,
      ← Mask.meets_ofMarkers k.store.rowsLinked actor.markers c]
    simp only [List.all_append, List.all_cons, List.all_nil, Schema.meets_disj,
      Bool.and_eq_true, List.any_eq_true, List.all_eq_true, Option.mem_toList, and_true,
      and_assoc]
    refine and_congr ?_ (and_congr_right' ?_)
    · exact exists_congr fun schema => and_congr_right fun h =>
        (haccepts (hdisj schema h)).symm
    · exact forall₂_congr fun schema h => (haccepts (hscope schema h)).symm

/-- A mask that compiles decides of every contract, and accepts it exactly if
    a role of the actor may read it, the actor knows all of its markers, and
    it is in the scope of the session. -/
theorem accepts_mask_iff [TextLibrary] (hk : Reachable k) (hmask : k.mask session = .ok mask)
    (hcompiles : mask.Compiles) :
    ∃ s a, k.ActsFor session s a ∧ ∀ c : Contract,
      (∃ accepted, k.accepts mask c.toRow = .ok accepted)
        ∧ (k.accepts mask c.toRow = .ok true
          ↔ (∃ role, HasRole a role ∧ k.MayRead role c)
            ∧ (∀ m ∈ c.markers, k.KnowsMarker a m)
            ∧ k.InScope s c) := by
  obtain ⟨actor, hactor, hmask⟩ := except_bind_ok hmask
  obtain ⟨s, orgs, hacts, horgs, hroles, hmarkers, hscope⟩ := actor_ok hactor
  refine ⟨s, actor.contract, hacts, fun c =>
    ⟨⟨_, hk.sound.accepts_eq hcompiles c.toRow⟩, ?_⟩⟩
  rw [hk.sound.accepts_maskOf hmask hcompiles c, inScope_iff hscope, hroles, hmarkers]
  simp only [mem_rolesOf, mem_markersOf horgs]

/-- The reader may see itself and not the card. -/
theorem entitled_reader :
    let k := guarded anonymous
    let actor := reader anonymous
    Reachable k ∧ k.mask "reader" = .ok anonymousMask ∧ anonymousMask.Compiles
      ∧ ((∃ role, HasRole actor role ∧ k.MayRead role actor)
        ∧ (∀ m ∈ actor.markers, k.KnowsMarker actor m) ∧ k.InScope actor actor)
      ∧ ¬((∃ role, HasRole actor role ∧ k.MayRead role card)
        ∧ (∀ m ∈ card.markers, k.KnowsMarker actor m) ∧ k.InScope actor card) := by
  have hreachable := guarded_reachable anonymous
  have haccepts (c : Contract) : (guarded anonymous).accepts anonymousMask c.toRow
      = .ok ((guarded anonymous).shows anonymousMask c) := by
    rw [hreachable.sound.shows_eq compiles_anonymousMask,
      hreachable.sound.accepts_eq compiles_anonymousMask]
  obtain ⟨s, a, ⟨hs, ha⟩, hiff⟩ :=
    accepts_mask_iff hreachable mask_anonymous compiles_anonymousMask
  have hreader := contract?_guarded reread_anonymous
  obtain rfl := Option.some.inj (hreader.symm.trans hs)
  have hactor : (reader anonymous).data.stringField? "actor" = some "reader" := rfl
  rw [hactor, Option.bind_some, hreader] at ha
  obtain rfl := Option.some.inj ha
  refine ⟨hreachable, mask_anonymous, compiles_anonymousMask, (hiff _).2.mp ?_,
    fun hcard => ?_⟩
  · rw [haccepts, shows_reader]
  · have hshown := (hiff card).2.mpr hcard
    rw [haccepts, not_shows_card] at hshown
    cases hshown

end Kernel

end LinkedContracts
