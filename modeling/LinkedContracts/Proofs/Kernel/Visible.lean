import LinkedContracts.Proofs.Compile.Success
import LinkedContracts.Proofs.Kernel.Reachable
import LinkedContracts.Proofs.Query.Order
import LinkedContracts.Proofs.Query.Run

/-! # What a mask shows

    A look-up asks for values of properties behind a mask.  What the mask
    forbids is not asked, so that a look-up finds the first contract, in its
    order, that the mask accepts and that has the other values. -/

namespace LinkedContracts

open Stateful

/-- A schema is compiled by a validator where it compiles at all. -/
theorem Validator.ofSchema_ok [TextLibrary] {s : Schema} :
    (∃ v, Validator.ofSchema s = .ok v) ↔ s.Compiles := by
  constructor
  · rintro ⟨v, hv⟩
    cases h : (Schema.compileRow s).run (Plan.start Validator.scope) with
    | mk result plan =>
        rw [Validator.ofSchema, h] at hv
        cases result with
        | error e => cases hv
        | ok f => exact Schema.compiles_of_compileRow h
  · intro h
    obtain ⟨f, plan, hrun⟩ := h (Plan.start Validator.scope)
    exact ⟨⟨f, _⟩, by rw [Validator.ofSchema, hrun]; rfl⟩

namespace Schema

/-! ## Asking for values -/

/-- The schema that asks for texts at names. -/
def asking (names : List String) (values : List (String × String)) : Schema :=
  .node
    { required := some names
      properties := some (values.map fun (key, value) =>
        (key, .node { const := some (.string value) })) }

variable [TextLibrary]

theorem compiles_asking (names : List String) (values : List (String × String)) :
    (asking names values).Compiles := by
  have fields (path : ValuePath) : Total (compileFields (values.map
      fun (key, value) => (key, .node { const := some (.string value) })) path) := by
    induction values with
    | nil => exact total_pure _
    | cons value rest ih =>
        exact total_bind (total_node rfl (total_pure _) (total_pure _)
            (total_pure _) (total_pure _) (total_pure _) (total_pure _)
            (total_pure _) (total_pure _)) fun _ =>
          total_bind ih fun _ => total_pure _
  exact total_bind total_get fun p =>
    total_node rfl (total_pure _) (total_pure _) (fields _) (total_pure _)
      (total_pure _) (total_pure _) (total_pure _) (total_pure _)

theorem meets_const (links : Json → String → List Json) (place : Place)
    (value v : Json) :
    (Schema.node { const := some value }).meets links place v = v.equal value := by
  have plain : ({ const := some value } : Keywords Schema).plainMeets place v
      = v.equal value := by
    cases place <;> cases v <;> simp [Keywords.plainMeets, Keywords.scalarMeets,
      Keywords.stringMeets, Keywords.numberMeets, Place.items?]
  rw [meets, plain]
  simp [eachMeets, someMeets, propertiesMeet, allMeet, anyMeets, notMeets,
    linksMeet]

/-- What is asked of a contract is the values it has. -/
theorem meets_asking (links : Json → String → List Json) {names : List String}
    {values : List (String × String)} (hnames : ∀ n ∈ names, n ∈ ValuePath.columns)
    (hkeys : ∀ p ∈ values, p.1 ∈ ValuePath.columns) (c : Json) :
    (asking names values).meets links .contract c
      = values.all fun (key, value) =>
          ((c.field? key).getD .null).equal (.string value) := by
  have required : (names.all fun name =>
      (Place.contract.property? c name).isSome) = true :=
    List.all_eq_true.mpr fun n hn => by simp [Place.property?, hnames n hn]
  have fields : fieldsMeet links (values.map fun (key, value) =>
      (key, .node { const := some (.string value) })) .contract c
      = values.all fun (key, value) =>
          ((c.field? key).getD .null).equal (.string value) := by
    induction values with
    | nil => rfl
    | cons value rest ih =>
        rw [List.map_cons, fieldsMeet, List.all_cons,
          ih fun p hp => hkeys p (List.mem_cons_of_mem _ hp)]
        simp [Place.property?, hkeys value List.mem_cons_self, meets_const]
  rw [asking, meets, propertiesMeet, fields]
  simp [Keywords.plainMeets, Keywords.scalarMeets, Place.items?, required,
    eachMeets, someMeets, allMeet, anyMeets, notMeets, linksMeet]

end Schema

namespace Mask

theorem prune_const (value : Json) (mask : Schema) :
    prune (.node { const := some value }) mask
      = .node { const := some value } := rfl

theorem pruneFields_values (values : List (String × String)) (mask : Schema) :
    pruneFields (values.map fun (key, value) =>
        (key, .node { const := some (.string value) })) mask
      = (values.filter fun p => !forbids mask p.1).map fun (key, value) =>
        (key, .node { const := some (.string value) }) := by
  induction values with
  | nil => rfl
  | cons value rest ih =>
      rw [List.map_cons, pruneFields, prune_const, ih, List.filter_cons]
      cases forbids mask value.1 <;> rfl

/-- Behind a mask is asked what the mask does not forbid. -/
theorem prune_asking (names : List String) (values : List (String × String))
    (mask : Schema) :
    prune (.asking names values) mask
      = .asking (names.filter fun n => !forbids mask n)
        (values.filter fun p => !forbids mask p.1) := by
  rw [Schema.asking, prune, pruneProperties, pruneFields_values]
  rfl

end Mask

namespace Kernel

variable {k : Kernel} {mask : Schema}

theorem Sound.linkSource (hk : k.Sound) :
    k.linkSource = .known k.store.rowsLinked := by
  funext parent name
  simp only [Kernel.linkSource, LinkSource.known, Store.rowsLinked,
    Kernel.linked, hk.outage]
  cases parent.stringField? "id" <;> rfl

/-! ## Acceptance -/

section

variable [TextLibrary]

/-- Whether a mask accepts a stored contract. -/
def shows (k : Kernel) (mask : Schema) (c : Contract) : Bool :=
  match k.accepts mask c.toRow with
  | .ok accepted => accepted
  | .error _ => false

/-- A mask that compiles accepts what meets it. -/
theorem Sound.accepts_eq (hk : k.Sound) (hmask : mask.Compiles) (c : Json) :
    k.accepts mask c = .ok (mask.meets k.store.rowsLinked .contract c) := by
  obtain ⟨f, plan, hrun⟩ := hmask (Plan.start Validator.scope)
  have hf := Schema.answer_compileRow hrun k.store.rowsLinked c
  rw [Kernel.accepts, Validator.ofSchema, hrun, hk.linkSource]
  show (f.matchContract _ Validator.scope c).map Option.isSome = _
  rw [Filter.matchContract_known, hf]
  cases mask.meets k.store.rowsLinked .contract c <;> rfl

theorem Sound.shows_eq (hk : k.Sound) (hmask : mask.Compiles) (c : Contract) :
    k.shows mask c = mask.meets k.store.rowsLinked .contract c.toRow := by
  rw [shows, hk.accepts_eq hmask]

theorem compiles_of_shows {c : Contract} (h : k.shows mask c = true) :
    mask.Compiles := by
  rw [← Validator.ofSchema_ok]
  cases hv : Validator.ofSchema mask with
  | ok v => exact ⟨v, rfl⟩
  | error e =>
      rw [shows, accepts, hv] at h
      cases h

/-! ## Look-ups behind a mask -/

/-- A query behind a mask compiles where the mask and the query do. -/
theorem compiles_merge {names : List String} {values : List (String × String)} :
    (Mask.merge mask (.asking names values)).Compiles ↔ mask.Compiles := by
  rw [Mask.merge, Mask.prune_asking, Schema.compiles_conj]
  refine ⟨fun h => h mask List.mem_cons_self, fun h s hs => ?_⟩
  rcases List.mem_cons.mp hs with rfl | hs
  · exact h
  · obtain rfl := List.mem_singleton.mp hs
    exact Schema.compiles_asking _ _

/-- Whether a look-up for values finds a row: the mask accepts it, and it
    has the values that the mask does not forbid. -/
def finds (k : Kernel) (mask : Schema) (values : List (String × String))
    (row : Json) : Bool :=
  mask.meets k.store.rowsLinked .contract row
    && values.all fun (key, value) => Mask.forbids mask key
      || ((row.field? key).getD .null).equal (.string value)

theorem meets_merge {names : List String} {values : List (String × String)}
    (hnames : ∀ n ∈ names, n ∈ ValuePath.columns)
    (hkeys : ∀ p ∈ values, p.1 ∈ ValuePath.columns) (row : Json) :
    (Mask.merge mask (.asking names values)).meets k.store.rowsLinked .contract row
      = k.finds mask values row := by
  rw [Mask.merge, Mask.prune_asking, Schema.meets_conj, List.all_cons,
    List.all_cons, List.all_nil, Bool.and_true, Schema.meets_asking _
      (fun n hn => hnames n (List.mem_filter.mp hn).1)
      (fun p hp => hkeys p (List.mem_filter.mp hp).1), List.all_filter, finds]
  simp

end

/-- The limit of a look-up is always within the limits. -/
theorem Sound.limit_one (hk : k.Sound) : k.settings.limit (some 1) = .ok 1 := by
  have hcheck := hk.settings
  have hmax : 1 ≤ k.settings.maxLimit := by
    simp only [Settings.check] at hcheck
    split at hcheck
    · cases hcheck
    split at hcheck
    · cases hcheck
    split at hcheck
    · cases hcheck
    · omega
  simp [Settings.limit, Nat.not_lt.mpr hmax]

variable [TextLibrary]

theorem Sound.compileMasked_asking (hk : k.Sound) (hmask : mask.Compiles)
    (names : List String) (values : List (String × String))
    {options : QueryOptions} (hlimit : options.limit = some 1) :
    ∃ q, Query.compileMasked k.settings mask (.asking names values)
        (some .empty) options = .ok q
      ∧ Query.compile k.settings.tables .empty
        (Mask.merge mask (.asking names values)) options = .ok q := by
  obtain ⟨f, plan, hrun⟩ := compiles_merge.mpr hmask
    (Plan.start k.settings.tables.contracts)
  have hq : Query.compile k.settings.tables .empty
      (Mask.merge mask (.asking names values)) options
        = .ok ⟨_, _, f, plan.joins, options⟩ :=
    Query.compile_eq_ok.mpr ⟨f, plan, hrun, by rw [hlimit]; decide, rfl⟩
  have hoptions : { options with limit := some 1 } = options := by
    rw [← hlimit]
  refine ⟨_, ?_, hq⟩
  simp only [Query.compileMasked, hlimit, hk.limit_one, bind, Except.bind]
  rw [hoptions]
  exact hq

/-- The contract that a look-up for values returns, redacted: the first one
    it finds, in an order. -/
def found (k : Kernel) (mask : Schema) (values : List (String × String))
    (options : QueryOptions) : Option Json :=
  ((Query.sort options (k.store.contracts.map Contract.toRow)).find?
    (k.finds mask values)).map (Mask.redact · mask)

theorem Sound.results_asking (hk : k.Sound) (hmask : mask.Compiles)
    {names : List String} {values : List (String × String)}
    (hnames : ∀ n ∈ names, n ∈ ValuePath.columns)
    (hkeys : ∀ p ∈ values, p.1 ∈ ValuePath.columns) {options : QueryOptions}
    (hlimit : options.limit = some 1) (hskip : options.skip = none) :
    (k.results mask (.asking names values) (some .empty) options).map
        List.getLast?
      = .ok (k.found mask values options) := by
  obtain ⟨q, hmasked, hq⟩ := hk.compileMasked_asking hmask names values hlimit
  have hwhole := Query.run_whole hq k.store
  rw [hlimit, hskip, funext (meets_merge hnames hkeys)] at hwhole
  cases hrun : k.store.run q with
  | error e => rw [hrun] at hwhole; cases hwhole
  | ok rows =>
      rw [hrun] at hwhole
      have hrows : rows.map q.reshape
          = page 0 (some 1) ((Query.sort options
            (k.store.contracts.map Contract.toRow)).filter
              (k.finds mask values)) := Except.ok.inj hwhole
      have hresults : k.results mask (.asking names values) (some .empty) options
          = .ok ((rows.map q.reshape).map (Mask.redact · mask)) := by
        simp [Kernel.results, hmasked, bind, Except.bind, Kernel.run, hk.outage,
          hrun, pure, Except.pure]
      rw [hresults, hrows, found]
      show Except.ok _ = Except.ok _
      rw [List.getLast?_map, page, List.drop_zero, ← List.head?_filter]
      congr 2
      cases List.filter _ _ <;> rfl

/-- A look-up that succeeds was behind a mask that compiles. -/
theorem compiles_of_results {names : List String}
    {values : List (String × String)} {options : QueryOptions}
    {results : List Json}
    (h : k.results mask (.asking names values) (some .empty) options
      = .ok results) : mask.Compiles := by
  simp only [Kernel.results, Query.compileMasked, bind, Except.bind] at h
  split at h
  · cases h
  next q hq =>
    split at hq
    · cases hq
    obtain ⟨f, plan, hrun, -, -⟩ := Query.compile_eq_ok.mp hq
    exact compiles_merge.mp (Schema.compiles_of_compileRow hrun)

theorem compiles_of_visible {id : String} {found : Option Json}
    (h : k.visible mask id = .ok found) : mask.Compiles := by
  rw [visible] at h
  cases hresults : k.results mask (withValues "id" [("id", id)]) (some .empty)
      { limit := some 1 } with
  | error e => rw [hresults] at h; cases h
  | ok results => exact compiles_of_results hresults

/-! ## What look-ups find -/

theorem Sound.finds_id (hk : k.Sound) (hcompiles : mask.Compiles) {id : String}
    {c : Contract} :
    k.finds mask [("id", id)] c.toRow = true ↔
      k.shows mask c = true
        ∧ (Mask.forbids mask "id" = true ∨ c.id = id) := by
  simp [finds, hk.shows_eq hcompiles, Json.equal, Json.equalBy]

theorem Sound.finds_slug (hk : k.Sound) (hcompiles : mask.Compiles)
    {slug : String} {c : Contract} :
    k.finds mask [("slug", slug)] c.toRow = true ↔
      k.shows mask c = true
        ∧ (Mask.forbids mask "slug" = true ∨ c.slug = slug) := by
  simp [finds, hk.shows_eq hcompiles, Json.equal, Json.equalBy]

theorem Sound.finds_version (hk : k.Sound) (hcompiles : mask.Compiles)
    {slug version : String} {c : Contract} :
    k.finds mask [("slug", slug), ("version", version)] c.toRow = true ↔
      k.shows mask c = true
        ∧ (Mask.forbids mask "slug" = true ∨ c.slug = slug)
        ∧ (Mask.forbids mask "version" = true ∨ c.version = version) := by
  simp [finds, hk.shows_eq hcompiles, Json.equal, Json.equalBy]

theorem isSome_found {values : List (String × String)} {options : QueryOptions} :
    (k.found mask values options).isSome = true ↔
      ∃ c ∈ k.store.contracts, k.finds mask values c.toRow = true := by
  rw [found, Option.isSome_map, List.find?_isSome]
  constructor
  · rintro ⟨row, hrow, hfinds⟩
    obtain ⟨c, hc, rfl⟩ := List.mem_map.mp (Query.mem_sort.mp hrow)
    exact ⟨c, hc, hfinds⟩
  · rintro ⟨c, hc, hfinds⟩
    exact ⟨c.toRow, Query.mem_sort.mpr (List.mem_map_of_mem hc), hfinds⟩

theorem found_of_unique {values : List (String × String)} {options : QueryOptions}
    {c : Contract} (hc : c ∈ k.store.contracts)
    (hfinds : ∀ d ∈ k.store.contracts,
      k.finds mask values d.toRow = true ↔ d = c) :
    k.found mask values options = some (Mask.redact c.toRow mask) := by
  have hrow : (Query.sort options (k.store.contracts.map Contract.toRow)).find?
      (k.finds mask values) = some c.toRow := by
    refine find?_eq_of_unique fun row => ?_
    rw [Query.mem_sort]
    constructor
    · rintro ⟨⟩
      exact ⟨List.mem_map_of_mem hc, (hfinds c hc).mpr rfl⟩
    · rintro ⟨hrow, hrowfinds⟩
      obtain ⟨d, hd, rfl⟩ := List.mem_map.mp hrow
      rw [(hfinds d hd).mp hrowfinds]
  rw [found, hrow, Option.map_some]

theorem Sound.visible_eq (hk : k.Sound) (hcompiles : mask.Compiles)
    (id : String) :
    k.visible mask id = .ok (k.found mask [("id", id)] { limit := some 1 }) :=
  hk.results_asking hcompiles (by decide) (by simp [ValuePath.columns]) rfl rfl

/-- Something is seen in the place of a stored contract where the mask shows
    it, or else where the mask forbids ids and shows any contract. -/
theorem Sound.visible_iff (hk : k.Sound) {c : Contract}
    (hc : c ∈ k.store.contracts) :
    (∃ view, k.visible mask c.id = .ok (some view)) ↔
      k.shows mask c = true
        ∨ Mask.forbids mask "id" = true
          ∧ ∃ d ∈ k.store.contracts, k.shows mask d = true := by
  constructor
  · rintro ⟨view, hview⟩
    have hcompiles := compiles_of_visible hview
    rw [hk.visible_eq hcompiles] at hview
    obtain ⟨d, hd, hfinds⟩ := isSome_found.mp
      (Option.isSome_iff_exists.mpr ⟨view, Except.ok.inj hview⟩)
    obtain ⟨hshows, hforbids | hid⟩ := (hk.finds_id hcompiles).mp hfinds
    · exact .inr ⟨hforbids, d, hd, hshows⟩
    · exact .inl (hk.store.eq_of_id hc hd hid.symm ▸ hshows)
  · intro h
    have found : ∃ d ∈ k.store.contracts, k.shows mask d = true
        ∧ (Mask.forbids mask "id" = true ∨ d.id = c.id) := by
      rcases h with hshows | ⟨hforbids, d, hd, hshows⟩
      · exact ⟨c, hc, hshows, .inr rfl⟩
      · exact ⟨d, hd, hshows, .inl hforbids⟩
    obtain ⟨d, hd, hshows, hasked⟩ := found
    have hcompiles := compiles_of_shows hshows
    obtain ⟨view, hview⟩ := Option.isSome_iff_exists.mp
      (isSome_found.mpr ⟨d, hd, (hk.finds_id hcompiles).mpr ⟨hshows, hasked⟩⟩)
    exact ⟨view, by rw [hk.visible_eq hcompiles, hview]⟩

/-- Where ids may be asked for, or nothing is shown anyway, a stored contract
    is seen just where the mask shows it. -/
theorem Sound.visible_of_mem (hk : k.Sound) (hcompiles : mask.Compiles)
    (hasked : ∀ d ∈ k.store.contracts, k.shows mask d = true →
      Mask.forbids mask "id" = false) {c : Contract}
    (hc : c ∈ k.store.contracts) :
    k.visible mask c.id
      = .ok (if k.shows mask c then some (Mask.redact c.toRow mask) else none) := by
  split
  next hshows =>
    have hid := hasked c hc hshows
    rw [hk.visible_eq hcompiles, found_of_unique hc]
    intro d hd
    rw [hk.finds_id hcompiles, hid]
    constructor
    · rintro ⟨-, hforbids | heq⟩
      · cases hforbids
      · exact hk.store.eq_of_id hd hc heq
    · rintro rfl
      exact ⟨hshows, .inr rfl⟩
  next hhidden =>
    rw [hk.visible_eq hcompiles]
    cases hfound : k.found mask [("id", c.id)] { limit := some 1 } with
    | none => rfl
    | some view =>
        rcases (hk.visible_iff hc).mp ⟨view, by rw [hk.visible_eq hcompiles, hfound]⟩ with
          hshows | ⟨hforbids, d, hd, hshows⟩
        · exact absurd hshows hhidden
        · rw [hasked d hd hshows] at hforbids
          cases hforbids

end Kernel

end LinkedContracts
