import LinkedContracts.Proofs.Builtin.Types
import LinkedContracts.Proofs.Store.Restamped

/-! # Built-in contracts as they are written

    A built-in contract that fits its type is written over the one there is
    of it, which keeps its id and its time of creation, or as a new one.
    Either way it is read back as the definition says, and what has another
    slug is found as before. -/

namespace LinkedContracts

/-- A contract without the time of its last update. -/
def Contract.undated (c : Contract) : Contract := { c with updatedAt := none }

namespace Store

variable {s t u : Store} {definition : Json}

/-- Whether a store has, under an id, the contract of a definition. -/
def Holds (s : Store) (definition : Json) (id : String) : Prop :=
  ∃ createdAt updatedAt,
    s.find? (Builtin.slugOf definition) (.exact Version.initial)
      = some (Builtin.contract definition id createdAt updatedAt)

/-- A store with the ids and links of another one, and with its contracts but
    for the times of their last updates. -/
structure Refreshed (s t : Store) : Prop where
  ids : ∀ id, id ∈ Dict.keys t.rows ↔ id ∈ Dict.keys s.rows
  edges : t.edges = s.edges
  contracts : ∀ id,
    (t.contract? id).map Contract.undated = (s.contract? id).map Contract.undated

theorem Refreshed.refl (s : Store) : s.Refreshed s :=
  ⟨fun _ => .rfl, rfl, fun _ => rfl⟩

theorem Refreshed.trans (h : s.Refreshed t) (h' : t.Refreshed u) : s.Refreshed u where
  ids id := (h'.ids id).trans (h.ids id)
  edges := h'.edges.trans h.edges
  contracts id := (h'.contracts id).trans (h.contracts id)

end Store

namespace Kernel

open Builtin Stateful

variable {k l m : Kernel} {definition type : Json} {uses : Nat}

/-- The ids and times that are given next: new ids, each once, and times that
    are read from their texts as themselves. -/
structure Supplied [TextLibrary] (k : Kernel) (uses : Nat) : Prop where
  uuid : ∀ i < uses, IsUuid (k.supply.id (k.supply.used + i))
  new : ∀ i < uses, Dict.find? k.store.rows (k.supply.id (k.supply.used + i)) = none
  distinct : ∀ i < uses, ∀ j < uses,
    k.supply.id (k.supply.used + i) = k.supply.id (k.supply.used + j) → i = j
  told : ∀ i < uses, Instant.parse? (k.supply.time (k.supply.used + i)).text
    = some (k.supply.time (k.supply.used + i))

/-- The contract found by a slug and the initial version has them. -/
theorem Sound.find?_initial (hk : k.Sound) {slug : String} {c : Contract} :
    k.store.find? slug (.exact Version.initial) = some c
      ↔ c ∈ k.store.contracts ∧ c.slug = slug ∧ c.version = "1.0.0" := by
  have hversion : Version.initial.text = "1.0.0" := by decide
  rw [Store.find?, hversion, hk.store.versioned?_eq_some]

/-! ## One definition -/

/-- The contract that a definition is completed to next. -/
def draft (k : Kernel) (definition : Json) : Contract :=
  contract definition (k.supply.id k.supply.used) k.supply.now none

/-- Check a built-in contract against its type. -/
def fits [TextLibrary] (k : Kernel) (c : Contract) : Except Error Unit := do
  (← k.builtinSchema c).check c.toJson k.linkSource

/-- The contract that is written of a draft. -/
def placed (k : Kernel) (c : Contract) : Contract :=
  match k.store.existing? c with
  | some found => Store.replacing k.supply.next.now c found
  | none => c

/-- The kernel after a draft was written. -/
def bootstrapped (k : Kernel) (c : Contract) : Kernel :=
  { k with
    supply := k.supply.next.next
    store := k.store.writeOver (k.placed c) (k.store.existing? c) }

theorem canonical_contract (hd : Plain definition) {id : String}
    (hid : id.isEmpty = false) (createdAt : Instant) :
    Store.canonical (contract definition id createdAt none)
      = .ok (contract definition id createdAt none) := by
  obtain ⟨slug, hslug, hnamed⟩ := hd.slug
  refine Store.canonical_first hid ?_ rfl rfl
  simp [contract, slugOf, Json.stringField?, hslug, Json.asString?, hnamed]

section

variable [TextLibrary]

/-- The id that the contract of a definition keeps, or is given. -/
def keptId (k : Kernel) (definition : Json) : String :=
  match k.store.find? (slugOf definition) (.exact Version.initial) with
  | some c => c.id
  | none => k.supply.id k.supply.used

/-- What a draft is written over is the contract with its slug and version, as
    its id is new. -/
theorem existing?_draft (definition : Json) (hs : k.Supplied (uses + 2)) :
    k.store.existing? (k.draft definition)
      = k.store.find? (slugOf definition) (.exact Version.initial) := by
  have hversion : Version.initial.text = "1.0.0" := by decide
  have hnew : k.store.contract? (k.draft definition).id = none := by
    rw [Store.contract?, show Dict.find? k.store.rows (k.draft definition).id = none from
      hs.new 0 (by omega)]
    rfl
  rw [Store.existing?, hnew, Store.find?, hversion]
  show (match k.store.versioned? (slugOf definition) "1.0.0" with
    | some found => some found
    | none => none) = _
  split <;> simp [*]

/-- What is written of a draft. -/
theorem placed_eq (hk : k.Sound) (definition : Json) (hs : k.Supplied (uses + 2)) :
    ∃ createdAt updatedAt, k.placed (k.draft definition)
        = contract definition (k.keptId definition) createdAt updatedAt
      ∧ Instant.parse? createdAt.text = some createdAt
      ∧ ∀ t, updatedAt = some t → Instant.parse? t.text = some t := by
  rw [placed, keptId, existing?_draft definition hs]
  cases hfound : k.store.find? (slugOf definition) (.exact Version.initial) with
  | none => exact ⟨k.supply.now, none, rfl, hs.told 0 (by omega), nofun⟩
  | some found =>
      obtain ⟨row, -, hcontents⟩ := hk.store.row_of_mem (Store.mem_of_find? hfound)
      refine ⟨found.createdAt, some k.supply.next.now, rfl,
        Contract.createdAt_of_reread (StoredRow.reread hcontents), fun t ht => ?_⟩
      obtain rfl := Option.some.inj ht
      exact hs.told 1 (by omega)

variable [TextLibrary.ReadsBuiltin]

/-- A definition is completed to its draft. -/
theorem ofPartial_draft (hd : Plain definition) (hs : k.Supplied (uses + 2)) :
    Contract.ofPartial (k.supply.id k.supply.used) k.supply.now definition
      = .ok (k.draft definition) :=
  hd.ofPartial (isEmpty_of_isUuid (hs.uuid 0 (by omega)))
    (Instant.parse?_orderText (hs.told 0 (by omega)))

theorem write_draft (hd : Plain definition) (hs : k.Supplied (uses + 2)) :
    k.store.write k.supply.next.now .upsert (k.draft definition)
      = .ok (k.placed (k.draft definition),
          (k.bootstrapped (k.draft definition)).store) := by
  have hcanonical : Store.canonical (k.draft definition) = .ok (k.draft definition) :=
    canonical_contract hd (isEmpty_of_isUuid (hs.uuid 0 (by omega))) _
  simp only [bootstrapped, placed]
  cases hfound : k.store.existing? (k.draft definition) with
  | some found => exact Store.write_existing hcanonical hfound _
  | none => exact Store.write_fresh .upsert hcanonical hfound _

end

theorem slug_placed (k : Kernel) (definition : Json) :
    (k.placed (k.draft definition)).slug = slugOf definition := by
  rw [placed]
  split <;> rfl

theorem id_placed [TextLibrary] (definition : Json) (hs : k.Supplied (uses + 2)) :
    (k.placed (k.draft definition)).id = k.keptId definition := by
  rw [placed, keptId, existing?_draft definition hs]
  split <;> rfl

/-- A built-in contract is no link. -/
theorem ofContract?_placed (hd : Plain definition) :
    Link.ofContract? (k.placed (k.draft definition)) = none := by
  obtain ⟨type, htype, -, hlink⟩ := hd.type
  have hplaced : (k.placed (k.draft definition)).type = type := by
    rw [placed]
    split <;> simp [Store.replacing, draft, contract, typeOf, Json.stringField?,
      htype, Json.asString?]
  rw [Link.ofContract?, hplaced, if_neg (by simp [hlink])]

theorem not_links_placed (hd : Plain definition) (id : String) :
    ¬Store.Links (k.placed (k.draft definition)) id := by
  rintro ⟨l, hl, -⟩
  rw [ofContract?_placed hd] at hl
  cases hl

theorem rows_bootstrapped (hd : Plain definition) :
    (k.bootstrapped (k.draft definition)).store.rows
        = (k.store.put (k.placed (k.draft definition))).rows
      ∧ (k.bootstrapped (k.draft definition)).store.edges = k.store.edges := by
  simp only [bootstrapped, Store.writeOver, ofContract?_placed hd]
  exact ⟨rfl, rfl⟩

section

variable [TextLibrary] [TextLibrary.ReadsBuiltin]

theorem sound_bootstrapped (hk : k.Sound) (hd : Plain definition)
    (hs : k.Supplied (uses + 2)) : (k.bootstrapped (k.draft definition)).Sound :=
  ⟨hk.settings, hk.store.write (write_draft hd hs), hk.outage⟩

/-- What is written has its definition, under the id that it keeps. -/
theorem holds_bootstrapped (hk : k.Sound) (hd : Plain definition)
    (hs : k.Supplied (uses + 2)) :
    (k.bootstrapped (k.draft definition)).store.Holds definition (k.keptId definition) := by
  have hsound := sound_bootstrapped hk hd hs
  obtain ⟨createdAt, updatedAt, hplaced, hcreated, hupdated⟩ := placed_eq hk definition hs
  have hfound := hk.store.find?_written (write_draft hd hs) (not_links_placed hd _)
  rw [hplaced] at hfound
  have hstored := hsound.store.contract?_eq_some.mp (show
      (k.bootstrapped (k.draft definition)).store.contract? (k.keptId definition)
        = some (contract definition (k.keptId definition) createdAt updatedAt) by
    rw [Store.contract?, show Dict.find? _ (k.keptId definition) = _ from hfound,
      Option.bind_some, StoredRow.contents_ofContract, hd.reread hcreated hupdated])
  exact ⟨createdAt, updatedAt, hsound.find?_initial.mpr ⟨hstored.1, rfl, rfl⟩⟩

/-- What has another slug is found as before. -/
theorem find?_bootstrapped (hk : k.Sound) (hd : Plain definition)
    (hs : k.Supplied (uses + 2)) {slug : String} (hslug : slugOf definition ≠ slug)
    (choice : VersionChoice) :
    (k.bootstrapped (k.draft definition)).store.find? slug choice
      = k.store.find? slug choice := by
  refine hk.store.find?_of_write (write_draft hd hs) ⟨?_, fun e he heslug => ?_,
    fun e _ _ => not_links_placed hd e.id⟩ choice
  · rw [slug_placed]
    exact hslug
  · rw [id_placed definition hs, keptId]
    split
    · next found hfound =>
        intro hid
        obtain rfl := hk.store.eq_of_id (Store.mem_of_find? hfound) he hid
        exact hslug ((hk.find?_initial.mp hfound).2.1.symm.trans heslug)
    · intro hid
      obtain ⟨row, hrow, -⟩ := hk.store.row_of_mem he
      rw [← hid, show Dict.find? k.store.rows (k.supply.id k.supply.used) = none from
        hs.new 0 (by omega)] at hrow
      cases hrow

/-- What is new is in its first version. -/
theorem first_bootstrapped (hk : k.Sound) (hd : Plain definition)
    (hs : k.Supplied (uses + 2)) {c : Contract}
    (hc : c ∈ (k.bootstrapped (k.draft definition)).store.contracts) :
    c ∈ k.store.contracts ∨ c.version = "1.0.0" := by
  obtain ⟨row, hrow, hcontents⟩ := (sound_bootstrapped hk hd hs).store.row_of_mem hc
  rw [(rows_bootstrapped hd).1] at hrow
  by_cases hid : c.id = (k.placed (k.draft definition)).id
  · rw [hid, Store.find?_put_self] at hrow
    obtain rfl := Option.some.inj hrow
    refine .inr ((StoredRow.sameIdentity hcontents).version.trans ?_)
    rw [StoredRow.written_ofContract, placed]
    split <;> rfl
  · rw [Store.find?_put_of_ne hk.store.sorted hid] at hrow
    obtain ⟨hrow, -⟩ := Option.filter_eq_some_iff.mp hrow
    exact .inl (Store.mem_contracts.mpr ⟨_, Dict.mem_of_find? hrow, hcontents⟩)

end

/-- The ids that are left are new still. -/
theorem supplied_bootstrapped [TextLibrary] (hk : k.Sound) (hd : Plain definition)
    (hs : k.Supplied (uses + 2)) :
    (k.bootstrapped (k.draft definition)).Supplied uses := by
  have hused (i : Nat) : k.supply.used + 1 + 1 + i = k.supply.used + (i + 2) := by omega
  constructor
  · intro i hi
    show IsUuid (k.supply.id (k.supply.used + 1 + 1 + i))
    rw [hused]
    exact hs.uuid _ (by omega)
  · intro i hi
    show Dict.find? _ (k.supply.id (k.supply.used + 1 + 1 + i)) = none
    have hnew := hs.new (i + 2) (by omega)
    rw [hused, (rows_bootstrapped hd).1, Store.find?_put_of_ne hk.store.sorted, hnew]
    · rfl
    · -- the id that is kept is stored, and a new one was given before
      rw [id_placed definition hs, keptId]
      split
      · next found hfound =>
          intro hid
          obtain ⟨row, hrow, -⟩ := hk.store.row_of_mem (Store.mem_of_find? hfound)
          rw [← hid, hnew] at hrow
          cases hrow
      · intro hid
        have heq := hs.distinct (i + 2) (by omega) 0 (by omega) hid
        omega
  · intro i hi j hj heq
    have heq : k.supply.id (k.supply.used + 1 + 1 + i)
      = k.supply.id (k.supply.used + 1 + 1 + j) := heq
    rw [hused, hused] at heq
    have := hs.distinct _ (by omega) _ (by omega) heq
    omega
  · intro i hi
    have htold := hs.told (i + 2) (by omega)
    rw [← hused] at htold
    exact htold

theorem keptId_of_holds {id : String} (h : k.store.Holds definition id) :
    k.keptId definition = id := by
  obtain ⟨createdAt, updatedAt, hfound⟩ := h
  rw [keptId, hfound]
  rfl

/-- A contract that is there already is left as it is, but for the time of its
    update. -/
theorem refreshed_bootstrapped [TextLibrary] (hk : k.Sound) (hd : Plain definition)
    (hs : k.Supplied (uses + 2)) {id : String} (h : k.store.Holds definition id) :
    k.store.Refreshed (k.bootstrapped (k.draft definition)).store := by
  obtain rfl := keptId_of_holds h
  obtain ⟨createdAt, updatedAt, hfound⟩ := h
  have hmem := (hk.find?_initial.mp hfound).1
  obtain ⟨row, hrow, hcontents⟩ := hk.store.row_of_mem hmem
  obtain ⟨hrows, hedges⟩ := rows_bootstrapped (k := k) hd
  obtain ⟨since, now, hplaced, hcreated, hupdated⟩ := placed_eq hk definition hs
  obtain rfl : createdAt = since := by
    have hsince : (k.placed (k.draft definition)).createdAt = createdAt := by
      rw [placed, existing?_draft definition hs, hfound]
      rfl
    rwa [hplaced, eq_comm] at hsince
  have hown : Dict.find? (k.bootstrapped (k.draft definition)).store.rows
      (k.keptId definition)
        = some (.ofContract (contract definition (k.keptId definition) createdAt now)) := by
    rw [hrows, hplaced]
    exact Store.find?_put_self k.store (contract definition _ createdAt now)
  -- no other row has the slug and version
  have hother (other : String) (hne : other ≠ k.keptId definition) :
      Dict.find? (k.bootstrapped (k.draft definition)).store.rows other
        = Dict.find? k.store.rows other := by
    rw [hrows, hplaced]
    cases hold : Dict.find? k.store.rows other with
    | none => rw [Store.find?_put_of_ne hk.store.sorted hne, hold]; rfl
    | some row =>
        exact Store.find?_put_keeps hk.store.sorted hold hne fun hsame =>
          hne (hk.store.id_of_row hmem hold hsame.1 hsame.2).symm
  have hrow : Dict.find? k.store.rows (k.keptId definition) = some row := hrow
  refine ⟨fun other => ?_, hedges, fun other => ?_⟩
  · by_cases hne : other = k.keptId definition
    · simp [hne, Dict.mem_keys, hown, hrow]
    · rw [Dict.mem_keys, Dict.mem_keys, hother other hne]
  · by_cases hne : other = k.keptId definition
    · rw [hne, Store.contract?, Store.contract?, hown, hrow, Option.bind_some,
        Option.bind_some, StoredRow.contents_ofContract, hd.reread hcreated hupdated,
        hcontents]
      rfl
    · rw [Store.contract?, Store.contract?, hother other hne]

/-! ## Running -/

/-- A built-in definition has its types pinned. -/
theorem normalized_contract (hd : Plain definition) (id : String) (createdAt : Instant) :
    normalized (contract definition id createdAt none)
      = contract definition id createdAt none := by
  obtain ⟨type, htype, hat, hlink⟩ := hd.type
  have htype : (contract definition id createdAt none).type = type := by
    simp [contract, typeOf, Json.stringField?, htype, Json.asString?]
  have hne : type ≠ Link.type := by
    rintro rfl
    exact absurd hlink (by decide)
  have hpinned : ({ contract definition id createdAt none with
      type := Reference.ofType (contract definition id createdAt none).type } : Contract)
        = contract definition id createdAt none := by
    rw [Reference.ofType, htype, if_pos hat, ← htype]
  rw [normalized, hpinned, Link.pinEndpoints, htype, if_neg hne]

/-- A transaction that succeeds leaves what its body leaves, and perhaps
    announces it. -/
theorem transaction_ok {α : Type} {body : Action α} {a : α}
    (h : body.run { k with depth := k.depth + 1 } = (.ok a, l)) :
    ∃ pending announced, (transaction body).run k = (.ok a,
      { l with depth := k.depth, store := { l.store with pending }, announced }) := by
  by_cases hdepth : 0 < k.depth
  · refine ⟨l.store.pending, l.announced, ?_⟩
    rw [transaction_inner _ hdepth, h]
  · refine ⟨[], l.announced ++ l.store.pending, ?_⟩
    rw [transaction_outer _ (Nat.eq_zero_of_not_pos hdepth), h]
    rfl

/-- A write inside a transaction. -/
theorem write_inner {mode : WriteMode} {c d : Contract} {t : Store} (hdepth : 0 < k.depth)
    (h : k.store.write k.supply.now mode c = .ok (d, t)) :
    (write mode c).run k = (.ok d, { k with supply := k.supply.next, store := t }) := by
  rw [write_eq, transaction_inner _ hdepth]
  simp only [writeInside, ExceptT.run, h]

/-- What a contract has to fit depends on nothing of the supply. -/
theorem fits_run [TextLibrary] (k : Kernel) (supply : Supply) (c : Contract) :
    (reading fun k => do (← k.builtinSchema c).check c.toJson k.linkSource).run
        { k with supply := supply }
      = (k.fits c, { k with supply := supply }) := rfl

/-- A built-in contract is written if it fits its type. -/
theorem bootstrap_run [TextLibrary] [TextLibrary.ReadsBuiltin] (hk : k.Sound)
    (hdepth : 0 < k.depth) (hd : Plain definition) (hs : k.Supplied (uses + 2)) :
    (bootstrap definition).run k = match k.fits (k.draft definition) with
      | .ok _ => (.ok (k.placed (k.draft definition)),
          k.bootstrapped (k.draft definition))
      | .error e => (.error e, { k with supply := k.supply.next }) := by
  have hnormalized : normalized (k.draft definition) = k.draft definition :=
    normalized_contract hd _ _
  have hnormalize := normalize_run (ofPartial_draft hd hs)
  rw [hnormalized] at hnormalize
  rw [bootstrap, run_bind_ok hnormalize, run_bind, fits_run]
  cases k.fits (k.draft definition) with
  | error e => rfl
  | ok _ =>
      dsimp only
      rw [upsert_run, if_neg (by simp [hk.outage]),
        write_inner (k := { k with supply := k.supply.next }) hdepth (write_draft hd hs)]
      rfl

/-! ## Types that are stored -/

theorem typeSchema_of_holds {id : String} (h : k.store.Holds type id) {reference : String}
    (href : Reference.parse reference = .ok ⟨slugOf type, .exact Version.initial⟩) :
    k.typeSchema reference = schemaIn type := by
  obtain ⟨createdAt, updatedAt, hfound⟩ := h
  rw [typeSchema_eq href hfound rfl]
  rfl

variable [TextLibrary]

/-- What has a type that is stored is checked against it. -/
theorem fits_of_holds {id : String} (h : k.store.Holds type id)
    (href : Reference.parse (typeOf definition)
      = .ok ⟨slugOf type, .exact Version.initial⟩)
    {schema : Schema} (hschema : schemaIn type = .ok schema) :
    k.fits (k.draft definition)
      = schema.check (k.draft definition).toJson k.linkSource := by
  have hstored : k.typeSchema (k.draft definition).type = .ok schema :=
    (typeSchema_of_holds h href).trans hschema
  rw [fits, builtinSchema, hstored]
  rfl

/-- A definition of another slug than its type, which accepts it. -/
structure Instantiates (definition type : Json) : Prop where
  plain : Plain definition
  other : slugOf definition ≠ slugOf type
  reference : Reference.parse (typeOf definition)
    = .ok ⟨slugOf type, .exact Version.initial⟩
  accepted : Builtin.accepts type definition = true

theorem Instantiates.fits (h : Instantiates definition type) (hk : k.Sound) {id : String}
    (htype : k.store.Holds type id) : k.fits (k.draft definition) = .ok () := by
  obtain ⟨schema, hschema, hcheck⟩ := check_of_accepts hk h.accepted
    (k.supply.id k.supply.used) k.supply.now
  rw [fits_of_holds htype h.reference hschema]
  exact hcheck

end Kernel

end LinkedContracts
