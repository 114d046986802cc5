import LinkedContracts.Proofs.Compile.Unseen
import LinkedContracts.Proofs.Kernel.Named
import Mathlib.Data.List.Sort

/-! # What the order of results shows

    Results are ordered as whole contracts, before anything of them is
    selected or redacted.  The order, and with it what a page shows, depends
    on the ids, and on what the results are sorted by or else the times of
    their creation; on nothing besides.  What they are sorted by need not be
    visible. -/

namespace LinkedContracts

namespace Store

variable {s t : Store} {key : String}

/-! ## Stores that differ in one property -/

/-- Whether stores hold the same contracts but for the values of one
    property. -/
def SameBut (key : String) (s t : Store) : Prop :=
  ∀ id, Option.Rel (fun c d => Json.SameBut key c.toRow d.toRow)
    (s.contract? id) (t.contract? id)

/-- Contracts are listed in the order of their ids. -/
theorem Sound.pairwise_id (h : s.Sound) :
    (s.contracts.map Contract.id).Pairwise (· < ·) := by
  have hkey {p : String × StoredRow} {id : String} (hp : p ∈ s.rows)
      (hid : p.2.contents.map Contract.id = some id) : id = p.1 := by
    obtain ⟨c, hc, rfl⟩ := Option.map_eq_some_iff.mp hid
    rw [(StoredRow.sameIdentity hc).id, h.keyed p hp]
  have hsorted : (Dict.keys s.rows).Pairwise (· < ·) := h.sorted
  rw [Dict.keys, List.pairwise_map] at hsorted
  rw [contracts, List.map_filterMap, List.pairwise_filterMap]
  refine hsorted.imp_of_mem ?_
  intro p q hp hq hlt id hid id' hid'
  rwa [hkey hp hid, hkey hq hid']

theorem Sound.mem_ids (h : s.Sound) {id : String} :
    id ∈ s.contracts.map Contract.id ↔ (s.contract? id).isSome = true := by
  rw [List.mem_map, Option.isSome_iff_exists]
  exact exists_congr fun c => h.contract?_eq_some.symm

theorem SameBut.ids_eq (h : SameBut key s t) (hs : s.Sound) (ht : t.Sound) :
    s.contracts.map Contract.id = t.contracts.map Contract.id := by
  refine hs.pairwise_id.eq_of_mem_iff ht.pairwise_id fun id => ?_
  rw [hs.mem_ids, ht.mem_ids]
  have hid := h id
  revert hid
  cases s.contract? id <;> cases t.contract? id <;> intro hid <;> cases hid <;> simp

/-- The contracts of such stores in pairs, one of each store. -/
theorem SameBut.exists_pairs (h : SameBut key s t) (hs : s.Sound) (ht : t.Sound) :
    ∃ pairs : List (Contract × Contract),
      pairs.map Prod.fst = s.contracts ∧ pairs.map Prod.snd = t.contracts
        ∧ ∀ p ∈ pairs, p.1.id = p.2.id ∧ Json.SameBut key p.1.toRow p.2.toRow := by
  have hids := h.ids_eq hs ht
  have hlength : s.contracts.length = t.contracts.length := by
    simpa using congrArg List.length hids
  refine ⟨s.contracts.zip t.contracts, List.map_fst_zip hlength.le,
    List.map_snd_zip hlength.ge, ?_⟩
  intro p hp
  obtain ⟨i, hi, rfl⟩ := List.getElem_of_mem hp
  rw [List.length_zip] at hi
  obtain ⟨his, hit⟩ := Nat.lt_min.mp hi
  rw [List.getElem_zip]
  have hc : s.contracts[i] ∈ s.contracts := List.getElem_mem his
  have hd : t.contracts[i] ∈ t.contracts := List.getElem_mem hit
  have hid : s.contracts[i].id = t.contracts[i].id := by
    have hget := congrArg (·[i]?) hids
    simpa [his, hit] using hget
  refine ⟨hid, ?_⟩
  have hrel := h s.contracts[i].id
  rw [hs.contract?_eq_some.mpr ⟨hc, rfl⟩, ht.contract?_eq_some.mpr ⟨hd, hid.symm⟩] at hrel
  cases hrel with
  | some hsame => exact hsame

/-- The contracts of a store are in order if what they are made of is. -/
theorem ordered_of_map {α : Type} {options : QueryOptions} {items : List α}
    {f : α → Contract} {before : α → α → Bool} (hitems : items.map f = s.contracts)
    (hbefore : ∀ a ∈ items, ∀ b ∈ items, before a b
      = (Query.cmpContracts options (f a).toRow (f b).toRow != .gt)) :
    s.ordered options = (items.mergeSort before).map f := by
  rw [ordered, ← hitems]
  exact (List.map_mergeSort hbefore).symm

/-! ## Stores of two contracts -/

/-- A store of two contracts without links. -/
def pair (c d : Contract) : Store :=
  ⟨[(c.id, .ofContract c), (d.id, .ofContract d)], [], []⟩

section

variable {c c' d : Contract} (hc : c.reread = some c) (hd : d.reread = some d)

include hc hd

theorem contracts_pair : (pair c d).contracts = [c, d] := by
  simp [contracts, pair, hc, hd]

theorem contract?_pair (id : String) : (pair c d).contract? id
    = if c.id = id then some c else if d.id = id then some d else none := by
  simp only [contract?, pair, Dict.find?_cons]
  split
  · rw [Option.bind_some, StoredRow.contents_ofContract, hc]
  split
  · rw [Option.bind_some, StoredRow.contents_ofContract, hd]
  · rfl

theorem sameBut_pair (hc' : c'.reread = some c') (hid : c'.id = c.id)
    (hsame : Json.SameBut key c.toRow c'.toRow) : (pair c d).SameBut key (pair c' d) := by
  intro id
  rw [contract?_pair hc hd, contract?_pair hc' hd, hid]
  split
  · exact .some hsame
  split
  · exact .some fun _ _ => rfl
  · exact .none

end

end Store

namespace Kernel

variable {k l : Kernel} {mask schema : Schema} {options : QueryOptions} {q : Query}
  {session : String} {query : Json} {key : String}

/-! ## Pages -/

/-- The order of results, and what a page shows, depends on nothing of the
    contracts but what the results are sorted by, the ids and, by default, the
    times of creation: where stores differ in another property only, and the
    same contracts match, a query returns results for the same contracts, in
    the same order. -/
theorem page_of_sameBut [TextLibrary] (hk : Reachable k) (hl : Reachable l)
    (hsettings : k.settings = l.settings) (hsame : k.store.SameBut key l.store)
    (horder : ¬options.OrdersBy key) (hmask : k.mask session = .ok mask)
    (hmask' : l.mask session = .ok mask) (hquery : Schema.ofQuery query = .ok schema)
    (hq : Query.compileMasked k.settings mask schema none options = .ok q)
    (hmatch : ∀ c ∈ k.store.contracts, ∀ d ∈ l.store.contracts, c.id = d.id →
      k.permits mask schema c = l.permits mask schema d) :
    ∃ pairs : List (Contract × Contract),
      k.query session query options = .ok (pairs.map fun p => k.resultFor q mask p.1)
        ∧ l.query session query options = .ok (pairs.map fun p => l.resultFor q mask p.2)
        ∧ ∀ p ∈ pairs, p.1 ∈ k.store.contracts ∧ p.2 ∈ l.store.contracts
          ∧ p.1.id = p.2.id ∧ Json.SameBut key p.1.toRow p.2.toRow := by
  obtain ⟨pairs, hfst, hsnd, hpairs⟩ := hsame.exists_pairs hk.sound.store hl.sound.store
  obtain ⟨limit, hlimit, hcompile⟩ := compile_of_compileMasked hq
  have hcompiles := compiles_of_compile hcompile
  let before (p p' : Contract × Contract) : Bool :=
    Query.cmpContracts options p.1.toRow p'.1.toRow != .gt
  -- both stores are sorted as the pairs are
  have hkordered : k.store.ordered options = (pairs.mergeSort before).map Prod.fst :=
    Store.ordered_of_map hfst fun _ _ _ _ => rfl
  have hlordered : l.store.ordered options = (pairs.mergeSort before).map Prod.snd := by
    refine Store.ordered_of_map hsnd fun p hp p' hp' => ?_
    rw [← Query.cmpContracts_congr horder (hpairs p hp).2 (hpairs p' hp').2]
  have hmem : ∀ p ∈ pairs.mergeSort before, p ∈ pairs := fun p hp =>
    List.mem_mergeSort.mp hp
  have hfst_mem : ∀ p ∈ pairs, p.1 ∈ k.store.contracts := fun p hp =>
    hfst ▸ List.mem_map_of_mem hp
  have hsnd_mem : ∀ p ∈ pairs, p.2 ∈ l.store.contracts := fun p hp =>
    hsnd ▸ List.mem_map_of_mem hp
  have hpermits : (pairs.mergeSort before).filter (k.permits mask schema ∘ Prod.fst)
      = (pairs.mergeSort before).filter (l.permits mask schema ∘ Prod.snd) := by
    refine List.filter_congr fun p hp => ?_
    have hp := hmem p hp
    exact hmatch p.1 (hfst_mem p hp) p.2 (hsnd_mem p hp) (hpairs p hp).1
  refine ⟨page (options.skip.getD 0) (some limit)
    ((pairs.mergeSort before).filter (k.permits mask schema ∘ Prod.fst)), ?_, ?_, ?_⟩
  · rw [query_of_mask hmask hquery, hk.sound.results_eq hlimit hcompiles hq, hkordered,
      List.filter_map, page_map, List.map_map]
    rfl
  · rw [query_of_mask hmask' hquery,
      hl.sound.results_eq (hsettings ▸ hlimit) hcompiles (hsettings ▸ hq), hlordered,
      List.filter_map, page_map, List.map_map, hpermits]
    rfl
  · intro p hp
    have hp := hmem p (List.mem_filter.mp (mem_of_mem_page hp)).1
    exact ⟨hfst_mem p hp, hsnd_mem p hp, hpairs p hp⟩

/-! ## A card with one name or another -/

/-- The mask of a reader in a store of two contracts. -/
theorem mask_of_pair {read : Json} {c : Contract} (hstore : k.store = .pair c (reader read))
    (hread : (reader read).reread = some (reader read)) (hid : c.id = "card")
    (hslug : c.slug = "card") (hschema : Schema.ofJson read = .ok schema) :
    k.mask "reader"
      = .ok (.conj [.disj [schema], Mask.ofMarkers ["role-reader"]]) := by
  refine mask_of_rows [("card", .ofContract c)] hread ?_ ?_ ?_ hschema
  · rw [hstore, Store.pair, hid]
    rfl
  · simpa using hslug
  · rw [hstore, Store.pair]

/-- A role that may read slugs and markers. -/
def plain : Json :=
  .object
    [("additionalProperties", .bool false),
     ("properties", .object [("markers", .bool true), ("slug", .bool true)])]

/-- The mask of the reader. -/
def plainMask : Schema := .conj [.disj [Mask.nameless], Mask.ofMarkers ["role-reader"]]

theorem reread_plain : (reader plain).reread = some (reader plain) :=
  reread_reader rfl

/-- The card with a name, or with none. -/
def called (name : Option String) : Contract := { card with name }

theorem canonical_called (name : Option String) :
    Store.canonical (called name) = .ok (called name) :=
  Store.canonical_first rfl rfl rfl rfl

theorem reread_called (name : Option String) :
    (called name).reread = some (called name) :=
  Contract.reread_eq rfl rfl rfl parse?_start rfl rfl nofun

theorem sameBut_called (name name' : Option String) :
    Json.SameBut "name" (called name).toRow (called name').toRow := by
  have hinsert (c : Contract) (name : Option String) :
      ({ c with name := name } : Contract).rowFields
        = Dict.insert c.rowFields "name" (Contract.optional .string name) := rfl
  intro other hother
  show Dict.find? _ other = Dict.find? _ other
  rw [called, called, hinsert card name, hinsert card name',
    Dict.find?_insert_of_ne _ _ hother.symm, Dict.find?_insert_of_ne _ _ hother.symm]

/-- The kernel after the reader and the card were written. -/
def calling (name : Option String) : Kernel :=
  ((write .insert (called name)).run ((write .insert (reader plain)).run empty).2).2

section

variable (name : Option String)

theorem calling_reachable [TextLibrary] : Reachable (calling name) :=
  have hempty : create {} empty.supply = .ok empty := rfl
  .ran (.write _ _) (.ran (.write _ _) (.created hempty))

theorem store_calling : (calling name).store = .pair (called name) (reader plain) := by
  have hlt : "card" < "reader" := by decide
  rw [calling, write_new rfl (canonical_reader plain) rfl (ofContract?_reader plain)]
  show ((write .insert (called name)).run _).2.store = _
  rw [write_new rfl (canonical_called name) rfl (ofContract?_of_card rfl)]
  show (⟨((Store.put {} (reader plain)).put (called name)).rows, [], []⟩ : Store) = _
  simp [Store.pair, Store.put, Dict.insert, reader, called, card, StoredRow.ofContract,
    hlt]

theorem settings_calling : (calling name).settings = {} := by
  rw [calling, write_new rfl (canonical_reader plain) rfl (ofContract?_reader plain)]
  show ((write .insert (called name)).run _).2.settings = _
  rw [write_new rfl (canonical_called name) rfl (ofContract?_of_card rfl)]
  rfl

theorem mask_calling : (calling name).mask "reader" = .ok plainMask :=
  mask_of_pair (store_calling name) reread_plain rfl rfl rfl

end

/-- Stores that differ in the name of the card only. -/
theorem sameBut_calling (name name' : Option String) :
    (calling name).store.SameBut "name" (calling name').store := by
  rw [store_calling, store_calling]
  exact Store.sameBut_pair (reread_called name) reread_plain (reread_called name') rfl
    (sameBut_called name name')

theorem permits_calling [TextLibrary] {name : Option String} {c : Contract}
    (hc : c ∈ (calling name).store.contracts) :
    (calling name).permits plainMask (describingSchema ["slug"]) c = true := by
  have hcompiles : (Mask.merge plainMask (describingSchema ["slug"])).Compiles :=
    Validator.ofSchema_ok.mp ⟨_, rfl⟩
  rw [← (calling_reachable name).sound.meets_merge_eq hcompiles]
  rw [store_calling, Store.contracts_pair (reread_called name) reread_plain] at hc
  simp only [List.mem_cons, List.not_mem_nil, or_false] at hc
  rcases hc with rfl | rfl
  · rfl
  · rfl

/-- A page of one contract shows the slug of the first. -/
theorem query_calling [TextLibrary] {name : Option String} {options : QueryOptions}
    {first : Contract} {rest : List Contract} (hlimit : options.limit = some 1) (hskip : options.skip = none)
    (hordered : (calling name).store.ordered options = first :: rest) :
    (calling name).query "reader" (describing ["slug"]) options
      = .ok [.object [("slug", .string first.slug)]] := by
  have hsound := (calling_reachable name).sound
  have hcompiles : (Mask.merge plainMask (describingSchema ["slug"])).Compiles :=
    Validator.ofSchema_ok.mp ⟨_, rfl⟩
  have hone : (calling name).settings.limit options.limit = .ok 1 := by
    rw [hlimit]
    exact hsound.limit_one
  obtain ⟨q, hq, hcompile⟩ := compileMasked_ok hone hcompiles none
  have hall : (first :: rest).filter
      ((calling name).permits plainMask (describingSchema ["slug"])) = first :: rest := by
    refine List.filter_eq_self.mpr fun c hc => permits_calling ?_
    exact ((calling name).store.ordered_perm options).mem_iff.mp (hordered ▸ hc)
  have hresult : (calling name).resultFor q plainMask first
      = .object [("slug", .string first.slug)] := by
    rw [resultFor, Query.resultOf_eq hcompile]
    have hselect := select_of_compileMasked hq
    rw [hselect]
    rfl
  have hquery : Schema.ofQuery (describing ["slug"])
      = .ok (describingSchema ["slug"]) := rfl
  rw [query_of_mask (mask_calling name) hquery,
    hsound.results_eq hone hcompiles hq, hordered, hall, hskip]
  exact congrArg (fun c => Except.ok [c]) hresult

/-- By default the same contracts come in the same order, whether the card has
    a name or not. -/
theorem page_of_sameBut_called : ∃ q, ∃ pairs : List (Contract × Contract),
    (calling (some "Card")).query "reader" (describing ["slug"]) {}
        = .ok (pairs.map fun p => (calling (some "Card")).resultFor q plainMask p.1)
      ∧ (calling none).query "reader" (describing ["slug"]) {}
        = .ok (pairs.map fun p => (calling none).resultFor q plainMask p.2)
      ∧ ∀ p ∈ pairs, p.1.id = p.2.id := by
  have hcompiles : (Mask.merge plainMask (describingSchema ["slug"])).Compiles :=
    Validator.ofSchema_ok.mp ⟨_, rfl⟩
  have hlimit : (calling (some "Card")).settings.limit ({} : QueryOptions).limit
      = .ok 100 := by
    rw [settings_calling]
    rfl
  have horder : ¬({} : QueryOptions).OrdersBy "name" := by decide
  have hquery : Schema.ofQuery (describing ["slug"]) = .ok (describingSchema ["slug"]) :=
    rfl
  obtain ⟨q, hq, -⟩ := compileMasked_ok hlimit hcompiles none
  obtain ⟨pairs, hfirst, hsecond, hpairs⟩ := page_of_sameBut (calling_reachable _)
    (calling_reachable none) ((settings_calling _).trans (settings_calling _).symm)
    (sameBut_calling _ _) horder (mask_calling _) (mask_calling _)
    hquery hq fun c hc d hd _ => by
      rw [permits_calling hc, permits_calling hd]
  exact ⟨q, pairs, hfirst, hsecond, fun p hp => (hpairs p hp).2.2.1⟩

/-- The first contract by name, those without a name before the others. -/
def firstByName : QueryOptions :=
  { limit := some 1, sortBy := some ["name"], descending := true }

theorem mergeSort_pair {α : Type} (before : α → α → Bool) (a b : α) :
    [a, b].mergeSort before = if before a b then [a, b] else [b, a] := by
  simp [List.mergeSort, List.merge]

/-- Which contract comes first tells whether the card has a name, although
    the mask forbids names. -/
theorem page_tells_name :
    Reachable (calling (some "Card")) ∧ Reachable (calling none)
      ∧ (calling (some "Card")).settings = (calling none).settings
      ∧ (calling (some "Card")).mask "reader" = .ok plainMask
      ∧ (calling none).mask "reader" = .ok plainMask
      ∧ Mask.forbids plainMask "name" = true
      ∧ (calling (some "Card")).store.SameBut "name" (calling none).store
      ∧ (∀ c ∈ (calling (some "Card")).store.contracts,
          (calling (some "Card")).permits plainMask (describingSchema ["slug"]) c = true)
      ∧ (∀ c ∈ (calling none).store.contracts,
          (calling none).permits plainMask (describingSchema ["slug"]) c = true)
      ∧ (calling (some "Card")).query "reader" (describing ["slug"]) firstByName
        = .ok [.object [("slug", .string "role-reader")]]
      ∧ (calling none).query "reader" (describing ["slug"]) firstByName
        = .ok [.object [("slug", .string "card")]] := by
  have hcalled : (calling (some "Card")).store.ordered firstByName
      = [reader plain, called (some "Card")] := by
    rw [Store.ordered, store_calling, Store.contracts_pair (reread_called _) reread_plain,
      mergeSort_pair]
    rfl
  have huncalled : (calling none).store.ordered firstByName
      = [called none, reader plain] := by
    rw [Store.ordered, store_calling, Store.contracts_pair (reread_called _) reread_plain,
      mergeSort_pair]
    rfl
  exact ⟨calling_reachable _, calling_reachable _,
    (settings_calling _).trans (settings_calling _).symm, mask_calling _, mask_calling _,
    by decide, sameBut_calling _ _, fun _ => permits_calling,
    fun _ => permits_calling, query_calling rfl rfl hcalled,
    query_calling rfl rfl huncalled⟩

end Kernel

end LinkedContracts
