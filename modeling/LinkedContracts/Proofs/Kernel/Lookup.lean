import LinkedContracts.Proofs.Kernel.Guarded

/-! # Looking contracts up

    A look-up should return what a session sees of the contract asked for,
    or nothing.  It does exactly where the mask of the session lets it ask
    for all that tells contracts apart, or where the mask shows nothing.

    What a mask forbids is not asked.  A look-up behind a mask that forbids
    ids returns the first contract the mask accepts, whatever the id. -/

namespace LinkedContracts

/-- There is always a text that is new. -/
theorem exists_new (known : List String) :
    ∃ s : String, s ∉ known ∧ s.isEmpty = false ∧ '@' ∉ s.toList := by
  let longest := ((known.map String.length).max?).getD 0
  refine ⟨String.ofList (List.replicate (longest + 1) 'a'), fun h => ?_, ?_, ?_⟩
  · have hlength : (String.ofList (List.replicate (longest + 1) 'a')).length
        ≤ longest := List.le_max?_getD_of_mem (List.mem_map_of_mem h)
    rw [String.length_ofList, List.length_replicate] at hlength
    omega
  · simp [List.replicate_succ]
  · simp

/-- The text of a version follows from how it is read. -/
theorem Contract.Kept.version_eq {c : Contract} (h : c.Kept) {v : Version} :
    Version.parse? c.version = some v ↔ c.version = v.text ∧ v.Spelled := by
  obtain ⟨w, hw, htext⟩ := h.version
  rw [htext, Version.parse?_text hw]
  constructor
  · rintro heq
    obtain rfl := Option.some.inj heq
    exact ⟨rfl, hw⟩
  · rintro ⟨heq, hv⟩
    rw [← Version.parse?_text hw, heq, Version.parse?_text hv]

/-- A reference names a slug without an at sign, and a version with a text
    of its own. -/
theorem Reference.parse_ok {reference : String} {r : Reference}
    (h : parse reference = .ok r) :
    '@' ∉ r.slug.toList ∧ ∀ v, r.version = .exact v → v.Spelled := by
  simp only [parse, Version.parse, bind, Except.bind] at h
  split at h
  · cases h
  next slug version hsplit =>
    have hslug := (eq_of_splitFirst hsplit).2
    split at h
    · cases h
    split at h
    · cases h
    split at h
    · obtain rfl := Except.ok.inj h
      exact ⟨by simpa using hslug, fun v hv => by cases hv⟩
    cases hv : Version.parse? (String.ofList version) with
    | none => rw [hv] at h; cases h
    | some v =>
        rw [hv] at h
        obtain rfl := Except.ok.inj h
        refine ⟨by simpa using hslug, ?_⟩
        rintro v ⟨⟩
        exact Version.spelled_of_parse? hv

/-- A reference to a slug and a version is read as that. -/
theorem Reference.parse_exact {slug : String} {v : Version}
    (hslug : slug.isEmpty = false) (hat : '@' ∉ slug.toList) (hv : v.Spelled) :
    parse (slug ++ "@" ++ v.text) = .ok ⟨slug, .exact v⟩ := by
  have hparse := Version.parse?_text hv
  have hne : v.text.toList.isEmpty = false := by
    cases h : v.text.toList with
    | cons c cs => rfl
    | nil =>
        rw [show v.text = "" from by simpa using h] at hparse
        cases hparse
  have hlatest : v.text ≠ "latest" := by
    intro h
    rw [h] at hparse
    cases hparse
  have htext : (slug ++ "@" ++ v.text).toList = slug.toList ++ '@' :: v.text.toList := by
    simp
  have hslug : slug.toList.isEmpty = false := by simpa using hslug
  simp [parse, htext, splitFirst_append hat, hne, hslug, hlatest, Version.parse,
    hparse, bind, Except.bind]

namespace Kernel

/-! ## What a look-up should return -/

/-- A look-up returned the one contract that is wanted and that the mask
    accepts, redacted, or nothing where there is none. -/
def Returned [TextLibrary] (k : Kernel) (mask : Schema) (wanted : Contract → Prop)
    (result : Except Error (Option Json)) : Prop :=
  ∃ found : Option Contract,
    (∀ c, found = some c ↔
      c ∈ k.store.contracts ∧ k.shows mask c = true ∧ wanted c)
    ∧ result = .ok (found.map fun c => Mask.redact c.toRow mask)

/-- A contract has no later version than another. -/
def NoLater (c d : Contract) : Prop :=
  ∃ v w, Version.parse? c.version = some v ∧ Version.parse? d.version = some w
    ∧ (Version.cmp v w).isLE = true

/-- The look-ups of a session with a mask return what they should. -/
structure LooksUp [TextLibrary] (k : Kernel) (session : String) (mask : Schema) : Prop where
  byId : ∀ id : String, id.isEmpty = false →
    k.Returned mask (fun c => c.id = id) (k.getById session id)
  exact : ∀ reference slug v,
    Reference.parse reference = .ok ⟨slug, .exact v⟩ →
    k.Returned mask
      (fun c => c.slug = slug ∧ Version.parse? c.version = some v)
      (k.getBySlug session reference)
  latest : ∀ reference slug,
    Reference.parse reference = .ok ⟨slug, .latest⟩ →
    k.Returned mask
      (fun c => c.slug = slug ∧ ∀ d ∈ k.store.contracts,
        k.shows mask d = true → d.slug = slug → NoLater d c)
      (k.getBySlug session reference)

/-! ## What a look-up returns -/

variable {k : Kernel} {session : String} {mask : Schema}

section

variable [TextLibrary]

theorem Sound.getById_eq (hk : k.Sound) (hmask : k.mask session = .ok mask)
    (hcompiles : mask.Compiles) {id : String} (hid : id.isEmpty = false) :
    k.getById session id
      = .ok (k.found mask [("id", id)] { limit := some 1 }) := by
  simp only [getById, hid, hmask, bind, Except.bind]
  exact hk.visible_eq hcompiles id

theorem Sound.getBySlug_exact (hk : k.Sound) (hmask : k.mask session = .ok mask)
    (hcompiles : mask.Compiles) {reference slug : String} {v : Version}
    (href : Reference.parse reference = .ok ⟨slug, .exact v⟩) :
    k.getBySlug session reference
      = .ok (k.found mask [("slug", slug), ("version", v.text)]
        { limit := some 1 }) := by
  rw [getBySlug, href, hmask]
  exact hk.results_asking hcompiles (by decide)
    (by simp [ValuePath.columns]) rfl rfl

theorem Sound.getBySlug_latest (hk : k.Sound) (hmask : k.mask session = .ok mask)
    (hcompiles : mask.Compiles) {reference slug : String}
    (href : Reference.parse reference = .ok ⟨slug, .latest⟩) :
    k.getBySlug session reference
      = .ok (k.found mask [("slug", slug)] Query.latestFirst) := by
  rw [getBySlug, href, hmask]
  exact hk.results_asking hcompiles (by decide)
    (by simp [ValuePath.columns]) rfl rfl

/-! ## What is found -/

/-- A look-up that finds just what is wanted returns what it should, where
    at most one contract is wanted. -/
theorem returned_of_unique {wanted : Contract → Prop}
    {values : List (String × String)} {options : QueryOptions}
    (hfinds : ∀ c ∈ k.store.contracts, k.finds mask values c.toRow = true ↔
      k.shows mask c = true ∧ wanted c)
    (hunique : ∀ c ∈ k.store.contracts, ∀ d ∈ k.store.contracts,
      wanted c → wanted d → c = d) :
    k.Returned mask wanted (.ok (k.found mask values options)) := by
  let wants (c : Contract) : Bool := k.finds mask values c.toRow
  have hsome (c : Contract) : k.store.contracts.find? wants = some c ↔
      c ∈ k.store.contracts ∧ k.shows mask c = true ∧ wanted c := by
    constructor
    · intro h
      have hc := List.mem_of_find?_eq_some h
      have hwants : wants c = true := List.find?_some h
      exact ⟨hc, (hfinds c hc).mp hwants⟩
    · rintro ⟨hc, hshows⟩
      cases h : k.store.contracts.find? wants with
      | none =>
          exact absurd ((hfinds c hc).mpr hshows) (List.find?_eq_none.mp h c hc)
      | some d =>
          have hd := List.mem_of_find?_eq_some h
          have hwants : wants d = true := List.find?_some h
          rw [hunique c hc d hd hshows.2 ((hfinds d hd).mp hwants).2]
  have hrows : (Query.sort options (k.store.contracts.map Contract.toRow)).find?
      (k.finds mask values) = (k.store.contracts.find? wants).map Contract.toRow := by
    refine find?_eq_of_unique fun row => ?_
    rw [Query.mem_sort]
    constructor
    · intro h
      obtain ⟨c, hc, rfl⟩ := Option.map_eq_some_iff.mp h
      have hwants : wants c = true := List.find?_some hc
      exact ⟨List.mem_map_of_mem (List.mem_of_find?_eq_some hc), hwants⟩
    · rintro ⟨hrow, hwants⟩
      obtain ⟨c, hc, rfl⟩ := List.mem_map.mp hrow
      rw [(hsome c).mpr ⟨hc, (hfinds c hc).mp hwants⟩]
      rfl
  refine ⟨_, hsome, ?_⟩
  rw [Kernel.found, hrows, Option.map_map]
  rfl

/-- Where nothing is wanted, a look-up that returned what it should found
    nothing. -/
theorem not_finds_of_returned {wanted : Contract → Prop}
    {values : List (String × String)} {options : QueryOptions}
    (h : k.Returned mask wanted (.ok (k.found mask values options)))
    (hnone : ∀ c ∈ k.store.contracts, ¬wanted c) :
    ∀ c ∈ k.store.contracts, ¬k.finds mask values c.toRow = true := by
  obtain ⟨found, hfound, hresult⟩ := h
  have hempty : found = none := by
    cases found with
    | none => rfl
    | some c =>
        obtain ⟨hc, -, hwanted⟩ := (hfound c).mp rfl
        exact absurd hwanted (hnone c hc)
  subst hempty
  have hnothing := Option.map_eq_none_iff.mp (Except.ok.inj hresult)
  exact fun c hc => List.find?_eq_none.mp hnothing _
    (Query.mem_sort.mpr (List.mem_map_of_mem hc))

end

/-! ## The latest version -/

/-- Contracts neither of which is later have the same version. -/
theorem version_eq_of_noLater {c d : Contract} (hc : c.Kept) (hd : d.Kept)
    (hcd : NoLater c d) (hdc : NoLater d c) : c.version = d.version := by
  obtain ⟨v, w, hv, hw, hle⟩ := hcd
  obtain ⟨w', v', hw', hv', hge⟩ := hdc
  obtain rfl := Option.some.inj (hv.symm.trans hv')
  obtain rfl := Option.some.inj (hw.symm.trans hw')
  have heq : Version.cmp v w = .eq := Std.OrientedCmp.isLE_antisymm hle hge
  rw [(hc.version_eq.mp hv).1, (hd.version_eq.mp hw).1, Version.eq_of_cmp heq]

theorem noLater_of_latestFirst {c d : Contract} (hc : c.Kept) (hd : d.Kept)
    (h : Query.cmpContracts Query.latestFirst c.toRow d.toRow ≠ .gt) :
    NoLater d c := by
  obtain ⟨v, hv, hcv⟩ := hc.version
  obtain ⟨w, hw, hdw⟩ := hd.version
  have hv' := hc.version_eq.mpr ⟨hcv, hv⟩
  have hw' := hd.version_eq.mpr ⟨hdw, hw⟩
  refine ⟨w, v, hw', hv', ?_⟩
  have hle := Query.cmp_of_latestFirst (a := c.toRow) (b := d.toRow) hv' hw' h
  revert hle
  cases Version.cmp w v <;> decide

/-- A look-up of the latest version that finds just the contracts with the
    slug returns what it should. -/
theorem Sound.returned_latest [TextLibrary] (hk : k.Sound) {slug : String}
    (hfinds : ∀ c ∈ k.store.contracts,
      k.finds mask [("slug", slug)] c.toRow = true ↔
        k.shows mask c = true ∧ c.slug = slug) :
    k.Returned mask
      (fun c => c.slug = slug ∧ ∀ d ∈ k.store.contracts,
        k.shows mask d = true → d.slug = slug → NoLater d c)
      (.ok (k.found mask [("slug", slug)] Query.latestFirst)) := by
  have hmem {c : Contract} (hc : c ∈ k.store.contracts) :
      c.toRow ∈ Query.sort Query.latestFirst
        (k.store.contracts.map Contract.toRow) :=
    Query.mem_sort.mpr (List.mem_map_of_mem hc)
  have hsorted := (Query.pairwise_sort Query.latestFirst
    (k.store.contracts.map Contract.toRow)).imp Ordering.isLE_iff_ne_gt.mp
  rw [Kernel.found]
  cases h : (Query.sort Query.latestFirst
      (k.store.contracts.map Contract.toRow)).find?
        (k.finds mask [("slug", slug)]) with
  | none =>
      refine ⟨none, fun c => ⟨fun hc => absurd hc (by simp), ?_⟩, rfl⟩
      rintro ⟨hc, hshows, hslug, -⟩
      exact absurd ((hfinds c hc).mpr ⟨hshows, hslug⟩)
        (List.find?_eq_none.mp h _ (hmem hc))
  | some row =>
      obtain ⟨hrow, before, after, hsplit, hbefore⟩ :=
        List.find?_eq_some_iff_append.mp h
      obtain ⟨c, hc, rfl⟩ := List.mem_map.mp
        (Query.mem_sort.mp (List.mem_of_find?_eq_some h))
      have hkept := hk.store.kept_of_mem hc
      obtain ⟨hshows, hslug⟩ := (hfinds c hc).mp hrow
      -- what stands before is not found, and what stands after is not later
      have hlatest (d : Contract) (hd : d ∈ k.store.contracts)
          (hshows : k.shows mask d = true) (hslug : d.slug = slug) :
          NoLater d c := by
        have hfound := (hfinds d hd).mpr ⟨hshows, hslug⟩
        have hkept' := hk.store.kept_of_mem hd
        have hplace := hmem hd
        rw [hsplit] at hplace hsorted
        rcases List.mem_append.mp hplace with hplace | hplace
        · simpa [hfound] using hbefore _ hplace
        rcases List.mem_cons.mp hplace with heq | hplace
        · have hcd : c = d := hk.store.eq_of_id hc hd
            (by simpa using (congrArg (Json.field? · "id") heq).symm)
          subst hcd
          obtain ⟨v, hv, htext⟩ := hkept.version
          have hv' := hkept.version_eq.mpr ⟨htext, hv⟩
          exact ⟨v, v, hv', hv', Std.ReflCmp.isLE_rfl⟩
        · exact noLater_of_latestFirst hkept hkept'
            ((List.pairwise_cons.mp (List.pairwise_append.mp hsorted).2.1).1 _ hplace)
      refine ⟨some c, fun d => ⟨?_, ?_⟩, rfl⟩
      · rintro ⟨⟩
        exact ⟨hc, hshows, hslug, hlatest⟩
      · rintro ⟨hd, hshows', hslug', hgreatest⟩
        have hversion := version_eq_of_noLater hkept (hk.store.kept_of_mem hd)
          (hgreatest c hc hshows hslug) (hlatest d hd hshows' hslug')
        rw [hk.store.eq_of_version hc hd (hslug.trans hslug'.symm) hversion]

/-! ## When look-ups return what they should -/

/-- A mask that lets look-ups ask for what tells the contracts apart that it
    shows: their ids, and their slugs and versions.  No reference names a
    slug with an at sign. -/
structure TellsApart [TextLibrary] (k : Kernel) (mask : Schema) : Prop where
  id : Mask.forbids mask "id" = false
  slug : Mask.forbids mask "slug" = false
  version : Mask.forbids mask "version" = false ∨
    ∀ c ∈ k.store.contracts, k.shows mask c = true → '@' ∈ c.slug.toList

namespace LooksUp

variable {c : Contract}

theorem compiles [TextLibrary] (h : k.LooksUp session mask)
    (hmask : k.mask session = .ok mask) : mask.Compiles := by
  obtain ⟨found, -, hresult⟩ := h.byId "a" (by decide)
  simp only [getById, hmask, bind, Except.bind] at hresult
  exact compiles_of_visible hresult

variable [TextLibrary]
variable (h : k.LooksUp session mask) (hk : k.Sound)
  (hmask : k.mask session = .ok mask) (hc : c ∈ k.store.contracts)
  (hshows : k.shows mask c = true)

include h hk hmask hc hshows

/-- A mask that shows a contract lets it be asked for by id. -/
theorem id_asked : Mask.forbids mask "id" = false := by
  have hcompiles := h.compiles hmask
  obtain ⟨id, hnew, hid, -⟩ := exists_new (k.store.contracts.map Contract.id)
  have hreturned := h.byId id hid
  rw [hk.getById_eq hmask hcompiles hid] at hreturned
  have hfinds := not_finds_of_returned hreturned
    (fun c hc heq => hnew (List.mem_map.mpr ⟨c, hc, heq⟩)) c hc
  rw [hk.finds_id hcompiles] at hfinds
  exact Bool.eq_false_iff.mpr fun hforbids => hfinds ⟨hshows, .inl hforbids⟩

/-- A mask that shows a contract lets it be asked for by slug. -/
theorem slug_asked : Mask.forbids mask "slug" = false := by
  have hcompiles := h.compiles hmask
  obtain ⟨slug, hnew, hslug, hat⟩ :=
    exists_new (k.store.contracts.map Contract.slug)
  obtain ⟨v, hv, htext⟩ := (hk.store.kept_of_mem hc).version
  have hparse := Reference.parse_exact hslug hat hv
  have hreturned := h.exact _ slug v hparse
  rw [hk.getBySlug_exact hmask hcompiles hparse] at hreturned
  have hfinds := not_finds_of_returned hreturned
    (fun c hc heq => hnew (List.mem_map.mpr ⟨c, hc, heq.1⟩)) c hc
  rw [hk.finds_version hcompiles] at hfinds
  exact Bool.eq_false_iff.mpr fun hforbids =>
    hfinds ⟨hshows, .inl hforbids, .inr htext⟩

/-- A mask that shows a contract that references can name lets it be asked
    for by version. -/
theorem version_asked (hat : '@' ∉ c.slug.toList) :
    Mask.forbids mask "version" = false := by
  have hcompiles := h.compiles hmask
  obtain ⟨build, hnew, -, -⟩ := exists_new (k.store.contracts.map fun c =>
    ((Version.parse? c.version).map Version.build).getD "")
  have hparse := Reference.parse_exact (v := ⟨0, 0, 0, "", build⟩)
    (hk.store.kept_of_mem hc).slug hat
    ⟨Nat.two_pow_pos 64, Nat.two_pow_pos 64, Nat.two_pow_pos 64, by simp⟩
  have hreturned := h.exact _ c.slug _ hparse
  rw [hk.getBySlug_exact hmask hcompiles hparse] at hreturned
  have hfinds := not_finds_of_returned hreturned (fun d hd heq => hnew
    (List.mem_map.mpr ⟨d, hd, by rw [heq.2]; rfl⟩)) c hc
  rw [hk.finds_version hcompiles] at hfinds
  exact Bool.eq_false_iff.mpr fun hforbids =>
    hfinds ⟨hshows, .inr rfl, .inl hforbids⟩

end LooksUp

/-- Where the mask tells the contracts apart, look-ups return what they
    should. -/
theorem Sound.looksUp [TextLibrary] (hk : k.Sound) (hmask : k.mask session = .ok mask)
    (hcompiles : mask.Compiles)
    (hshown : (∀ c ∈ k.store.contracts, k.shows mask c = false)
      ∨ k.TellsApart mask) : k.LooksUp session mask where
  byId id hid := by
    rw [hk.getById_eq hmask hcompiles hid]
    refine returned_of_unique (fun c hc => ?_)
      fun c hc d hd hci hdi => hk.store.eq_of_id hc hd (hci.trans hdi.symm)
    rw [hk.finds_id hcompiles]
    rcases hshown with hnone | happart
    · simp [hnone c hc]
    · simp [happart.id]
  exact reference slug v href := by
    obtain ⟨hat, hspelled⟩ := Reference.parse_ok href
    have hversion {c : Contract} (hc : c ∈ k.store.contracts) :
        Version.parse? c.version = some v ↔ c.version = v.text :=
      (hk.store.kept_of_mem hc).version_eq.trans
        (and_iff_left (hspelled v rfl))
    rw [hk.getBySlug_exact hmask hcompiles href]
    refine returned_of_unique (fun c hc => ?_) fun c hc d hd hcw hdw => ?_
    · rw [hk.finds_version hcompiles, hversion hc]
      rcases hshown with hnone | happart
      · simp [hnone c hc]
      rcases happart.version with hasked | hnamed
      · simp [happart.slug, hasked]
      · -- a reference names none of the contracts that are shown
        have hother (hshows : k.shows mask c = true) : c.slug ≠ slug := by
          rintro rfl
          exact hat (hnamed c hc hshows)
        simp only [happart.slug, Bool.false_eq_true, false_or]
        exact ⟨fun hfound => absurd hfound.2.1 (hother hfound.1),
          fun hwanted => absurd hwanted.2.1 (hother hwanted.1)⟩
    · exact hk.store.eq_of_version hc hd (hcw.1.trans hdw.1.symm)
        (((hversion hc).mp hcw.2).trans ((hversion hd).mp hdw.2).symm)
  latest reference slug href := by
    rw [hk.getBySlug_latest hmask hcompiles href]
    refine hk.returned_latest fun c hc => ?_
    rw [hk.finds_slug hcompiles]
    rcases hshown with hnone | happart
    · simp [hnone c hc]
    · simp [happart.slug]

/-- The look-ups of a session return what they should just where the mask
    can be checked at all, and shows nothing or tells the contracts apart
    that it shows. -/
theorem looksUp_iff [TextLibrary] (hk : Reachable k) (hmask : k.mask session = .ok mask) :
    k.LooksUp session mask ↔
      (∃ v, Validator.ofSchema mask = .ok v)
        ∧ ((∀ c ∈ k.store.contracts, k.shows mask c = false)
          ∨ k.TellsApart mask) := by
  have hsound := hk.sound
  rw [Validator.ofSchema_ok]
  constructor
  · intro h
    refine ⟨h.compiles hmask, ?_⟩
    by_cases hnone : ∀ c ∈ k.store.contracts, k.shows mask c = false
    · exact .inl hnone
    · obtain ⟨c, hc, hshows⟩ : ∃ c ∈ k.store.contracts, k.shows mask c = true := by
        simpa using hnone
      refine .inr ⟨h.id_asked hsound hmask hc hshows,
        h.slug_asked hsound hmask hc hshows, ?_⟩
      by_cases hforbids : Mask.forbids mask "version" = false
      · exact .inl hforbids
      · exact .inr fun d hd hshows => Decidable.byContradiction fun hat =>
          hforbids (h.version_asked hsound hmask hd hshows hat)
  · rintro ⟨hcompiles, hshown⟩
    exact hsound.looksUp hmask hcompiles hshown

/-- A reader whose mask says nothing but that markers be known looks
    contracts up as it should. -/
theorem looksUp_iff_guarded :
    (guarded (.bool true)).LooksUp "reader"
      (.conj [.disj [.bool true], Mask.ofMarkers ["role-reader"]]) := by
  have hread : (reader (.bool true)).reread = some (reader (.bool true)) :=
    reread_reader rfl
  exact (looksUp_iff (guarded_reachable _) (mask_guarded hread rfl)).mpr
    ⟨⟨_, rfl⟩, .inr ⟨by decide, by decide, .inl (by decide)⟩⟩

/-- Whoever sees no ids gets another contract for the id of a contract. -/
theorem not_looksUp_anonymous :
    Reachable (guarded anonymous)
      ∧ (guarded anonymous).mask "reader" = .ok anonymousMask
      ∧ (∃ v, Validator.ofSchema anonymousMask = .ok v)
      ∧ ¬(guarded anonymous).LooksUp "reader" anonymousMask := by
  refine ⟨guarded_reachable _, mask_anonymous,
    Validator.ofSchema_ok.mpr compiles_anonymousMask, fun h => ?_⟩
  have hreader : reader anonymous ∈ (guarded anonymous).store.contracts := by
    simp [contracts_guarded reread_anonymous]
  have hasked := h.id_asked (guarded_reachable _).sound mask_anonymous hreader
    shows_reader
  exact absurd hasked (by decide)

end Kernel

end LinkedContracts
