import LinkedContracts.Proofs.Kernel.Guarded

/-! # What queries return

    A query behind a mask has one result for each stored contract that the
    mask accepts and that meets what the mask leaves of the query, in the
    order of the query and cut to its page.

    The mask and the query are compiled as one schema, in one plan; that the
    filter holds of a contract exactly when both are met follows from what
    compiled schemas mean, for the conjunction of the two. -/

namespace LinkedContracts

namespace Store

/-- The stored contracts in the order of a query. -/
def ordered (s : Store) (options : QueryOptions) : List Contract :=
  s.contracts.mergeSort fun a b =>
    Query.cmpContracts options a.toRow b.toRow != .gt

theorem ordered_perm (s : Store) (options : QueryOptions) :
    (s.ordered options).Perm s.contracts :=
  List.mergeSort_perm _ _

/-- The rows of the store are ordered as its contracts are. -/
theorem sort_rows (s : Store) (options : QueryOptions) :
    Query.sort options (s.contracts.map Contract.toRow)
      = (s.ordered options).map Contract.toRow := by
  have h : ∀ a ∈ s.contracts, ∀ b ∈ s.contracts,
      (Query.cmpContracts options a.toRow b.toRow != .gt)
        = (Query.cmpContracts options a.toRow b.toRow != .gt) :=
    fun _ _ _ _ => rfl
  exact (List.map_mergeSort h).symm

end Store

/-- A limit within the limits is positive. -/
theorem Settings.limit_ne_zero {s : Settings} {requested : Option Nat}
    {limit : Nat} (h : s.limit requested = .ok limit) : limit ≠ 0 := by
  simp only [Settings.limit] at h
  split at h
  · cases h
  · next hrange =>
      obtain rfl := Except.ok.inj h
      simp only [Bool.or_eq_true, decide_eq_true_eq, not_or] at hrange
      exact hrange.1

namespace Kernel

variable {k : Kernel} {mask schema : Schema} {select : Option Selection}
  {options : QueryOptions} {limit : Nat}

section

variable [TextLibrary]

/-- Whether a query behind a mask has a result for a stored contract. -/
def permits (k : Kernel) (mask schema : Schema) (c : Contract) : Bool :=
  k.shows mask c && k.shows (Mask.prune schema mask) c

/-- What a query behind a mask returns for a stored contract. -/
def resultFor (k : Kernel) (q : Query) (mask : Schema) (c : Contract) : Json :=
  Mask.redact (q.resultOf k.store.rowsLinked c.toRow) mask

theorem compiles_of_merge (h : (Mask.merge mask schema).Compiles) :
    mask.Compiles ∧ (Mask.prune schema mask).Compiles := by
  rw [Mask.merge, Schema.compiles_conj] at h
  exact ⟨h _ (by simp), h _ (by simp)⟩

/-- A contract meets mask and query together where both accept it. -/
theorem Sound.meets_merge_eq (hk : k.Sound)
    (h : (Mask.merge mask schema).Compiles) (c : Contract) :
    (Mask.merge mask schema).meets k.store.rowsLinked .contract c.toRow
      = k.permits mask schema c := by
  obtain ⟨hmask, hquery⟩ := compiles_of_merge h
  rw [permits, hk.shows_eq hmask, hk.shows_eq hquery, Mask.merge,
    Schema.meets_conj]
  simp

/-- A query behind a mask compiles where the two do together. -/
theorem compileMasked_ok (hlimit : k.settings.limit options.limit = .ok limit)
    (h : (Mask.merge mask schema).Compiles) (select : Option Selection) :
    ∃ q, Query.compileMasked k.settings mask schema select options = .ok q
      ∧ Query.compile k.settings.tables
        (select.getD (Query.maskedSelection mask schema))
        (Mask.merge mask schema) { options with limit := some limit }
          = .ok q := by
  obtain ⟨f, plan, hrun⟩ := h (Plan.start k.settings.tables.contracts)
  have hpositive : some limit ≠ some 0 := by
    simpa using Settings.limit_ne_zero hlimit
  have hq : Query.compile k.settings.tables
      (select.getD (Query.maskedSelection mask schema))
      (Mask.merge mask schema) { options with limit := some limit } = .ok _ :=
    Query.compile_eq_ok.mpr ⟨f, plan, hrun, hpositive, rfl⟩
  refine ⟨_, ?_, hq⟩
  simp only [Query.compileMasked, hlimit, bind, Except.bind]
  exact hq

theorem compile_of_compileMasked {settings : Settings} {q : Query}
    (h : Query.compileMasked settings mask schema select options = .ok q) :
    ∃ limit, settings.limit options.limit = .ok limit
      ∧ Query.compile settings.tables
        (select.getD (Query.maskedSelection mask schema))
        (Mask.merge mask schema) { options with limit := some limit } = .ok q := by
  obtain ⟨limit, hlimit, h⟩ := except_bind_ok h
  exact ⟨limit, hlimit, h⟩

theorem select_of_compileMasked {settings : Settings} {q : Query}
    (h : Query.compileMasked settings mask schema none options = .ok q) :
    q.select = Query.maskedSelection mask schema := by
  obtain ⟨limit, -, hcompile⟩ := compile_of_compileMasked h
  obtain ⟨f, plan, -, -, rfl⟩ := Query.compile_eq_ok.mp hcompile
  rfl

theorem compiles_of_compile {tables : Tables} {select : Selection}
    {options : QueryOptions} {q : Query}
    (h : Query.compile tables select schema options = .ok q) : schema.Compiles := by
  obtain ⟨f, plan, hrun, -, -⟩ := Query.compile_eq_ok.mp h
  exact Schema.compiles_of_compileRow hrun

end

section

variable [TextLibrary]
variable (hk : k.Sound) (hlimit : k.settings.limit options.limit = .ok limit)
  (h : (Mask.merge mask schema).Compiles) {q : Query}
  (hq : Query.compileMasked k.settings mask schema select options = .ok q)

include hk hlimit h hq

/-- The rows of a query behind a mask are those of the contracts that it permits, in
    its order and cut to its page. -/
theorem Sound.run_eq :
    k.run q = .ok ((page (options.skip.getD 0) (some limit)
        ((k.store.ordered options).filter (k.permits mask schema))).map
          (q.rowIn k.store.rowsLinked ∘ Contract.toRow)) := by
  obtain ⟨limit', hlimit', hcompile⟩ := compile_of_compileMasked hq
  obtain rfl : limit' = limit := Except.ok.inj (hlimit'.symm.trans hlimit)
  have hrun := Query.run_eq hcompile k.store
  have hsort : Query.sort { options with limit := some limit' }
      = Query.sort options := rfl
  have hfilter : (Mask.merge mask schema).meets k.store.rowsLinked .contract
      ∘ Contract.toRow = k.permits mask schema :=
    funext fun c => hk.meets_merge_eq h c
  rw [hsort, Store.sort_rows, List.filter_map, page_map, List.map_map, hfilter] at hrun
  rw [Kernel.run, hk.outage]
  exact hrun

theorem Sound.results_eq :
    k.results mask schema select options
      = .ok ((page (options.skip.getD 0) (some limit)
          ((k.store.ordered options).filter (k.permits mask schema))).map
            (k.resultFor q mask)) := by
  simp only [Kernel.results, hq, bind, Except.bind, hk.run_eq hlimit h hq, pure,
    Except.pure, List.map_map]
  rfl

end

/-- The row of a contract has a result exactly if it is permitted. -/
theorem Sound.evaluate_row [TextLibrary] (hk : k.Sound)
    {q : Query} (hq : Query.compileMasked k.settings mask schema select options = .ok q)
    (c : Contract) :
    q.evaluate c.toRow k.linkSource
      = .ok (if k.permits mask schema c then
          some (q.resultOf k.store.rowsLinked c.toRow) else none) := by
  obtain ⟨limit, -, hcompile⟩ := compile_of_compileMasked hq
  have hmeets := hk.meets_merge_eq (compiles_of_compile hcompile) c
  obtain ⟨f, plan, hrun, -, rfl⟩ := Query.compile_eq_ok.mp hcompile
  have hanswer := Schema.answer_compileRow hrun k.store.rowsLinked c.toRow
  rw [hk.linkSource, Query.evaluate_known, hanswer, hmeets]

/-! ## Queries of sessions -/

/-- Queries are sound and complete behind a mask: their results are those of
    the stored contracts that the mask accepts and that meet what the mask
    leaves of the query, each once, in the order of the query and cut to its
    page. -/
theorem query_eq [TextLibrary] (hk : Reachable k) {session : String} {query : Json}
    (hmask : k.mask session = .ok mask)
    (hquery : Schema.ofQuery query = .ok schema)
    (hlimit : k.settings.limit options.limit = .ok limit)
    (h : (Mask.merge mask schema).Compiles) :
    ∃ q, Query.compileMasked k.settings mask schema none options = .ok q
      ∧ k.query session query options
        = .ok ((page (options.skip.getD 0) (some limit)
            ((k.store.ordered options).filter (k.permits mask schema))).map
              (k.resultFor q mask))
      ∧ (k.store.ordered options).Perm k.store.contracts
      ∧ (k.store.ordered options).map Contract.toRow
        = Query.sort options (k.store.contracts.map Contract.toRow)
      ∧ ∀ c : Contract,
        (k.permits mask schema c = true ↔
          k.accepts mask c.toRow = .ok true
            ∧ k.accepts (Mask.prune schema mask) c.toRow = .ok true)
        ∧ q.evaluate c.toRow k.linkSource
          = .ok (if k.permits mask schema c then
              some (q.resultOf k.store.rowsLinked c.toRow) else none) := by
  have sound := hk.sound
  obtain ⟨q, hmasked, hcompile⟩ := compileMasked_ok hlimit h none
  obtain ⟨hmaskCompiles, hqueryCompiles⟩ := compiles_of_merge h
  refine ⟨q, hmasked, ?_, k.store.ordered_perm options,
    (k.store.sort_rows options).symm, fun c => ⟨?_, ?_⟩⟩
  · simp only [Kernel.query, hmask, hquery, bind, Except.bind]
    exact sound.results_eq hlimit h hmasked
  · rw [permits, Bool.and_eq_true, sound.accepts_eq hmaskCompiles,
      sound.accepts_eq hqueryCompiles, sound.shows_eq hmaskCompiles,
      sound.shows_eq hqueryCompiles]
    simp
  · exact sound.evaluate_row hmasked c

/-- A query for a contract by its id and its slug. -/
def byIdAndSlug : Json :=
  .object
    [("properties", .object
      [("id", .object [("const", .string "reader")]),
       ("slug", .object [("const", .string "role-reader")])]),
     ("required", .array [.string "slug"])]

/-- The schema of the query. -/
def byIdAndSlugSchema : Schema :=
  .asking ["slug"] [("id", "reader"), ("slug", "role-reader")]

/-- The reader sees the slug of its own contract.  The id, which its mask
    forbids, is neither asked nor shown, and the card is not accepted. -/
theorem query_eq_anonymous :
    (guarded anonymous).query "reader" byIdAndSlug {}
      = .ok [.object [("slug", .string "role-reader")]] := by
  have sound := (guarded_reachable anonymous).sound
  have hcompiles : (Mask.merge anonymousMask byIdAndSlugSchema).Compiles :=
    compiles_merge.mpr compiles_anonymousMask
  have hschema : Schema.ofQuery byIdAndSlug = .ok byIdAndSlugSchema := rfl
  have hlimit : (guarded anonymous).settings.limit ({} : QueryOptions).limit
      = .ok 100 := rfl
  obtain ⟨q, hq, hquery, hordered, -⟩ :=
    query_eq (guarded_reachable anonymous) mask_anonymous hschema hlimit hcompiles
  have hreader : (guarded anonymous).permits anonymousMask byIdAndSlugSchema
      (reader anonymous) = true := by
    rw [permits, shows_reader, sound.shows_eq (compiles_of_merge hcompiles).2]
    rfl
  have hcard : (guarded anonymous).permits anonymousMask byIdAndSlugSchema card
      = false := by
    rw [permits, not_shows_card, Bool.false_and]
  have hshown : ((guarded anonymous).store.ordered {}).filter
      ((guarded anonymous).permits anonymousMask byIdAndSlugSchema)
        = [reader anonymous] := by
    have hperm := hordered.filter
      ((guarded anonymous).permits anonymousMask byIdAndSlugSchema)
    rw [contracts_guarded reread_anonymous] at hperm
    exact List.perm_singleton.mp (by simpa [hreader, hcard] using hperm)
  obtain ⟨limit, -, hcompile⟩ := compile_of_compileMasked hq
  have hresult : (guarded anonymous).resultFor q anonymousMask (reader anonymous)
      = .object [("slug", .string "role-reader")] := by
    rw [resultFor, Query.resultOf_eq hcompile, select_of_compileMasked hq]
    rfl
  rw [hquery, hshown]
  exact congrArg (fun c => Except.ok [c]) hresult

end Kernel

end LinkedContracts
