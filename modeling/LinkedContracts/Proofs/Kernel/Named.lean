import LinkedContracts.Proofs.Kernel.Linked
import LinkedContracts.Proofs.Query.Named

/-! # What queries put out

    A query that selects nothing by itself puts out what its schema names and
    its mask does not forbid.  Where the mask forbids all that is named there
    is nothing left to select, and this is read as a selection of everything:
    the query then puts out all that the mask lets through. -/

namespace LinkedContracts

namespace Query

variable {settings : Settings} {mask schema : Schema} {options : QueryOptions}
  {q : Query} {key : String}

/-- Whether a mask lets through any property that a query names. -/
def NamesVisible (mask schema : Schema) : Prop :=
  ∃ name, schema.Names name ∧ Mask.forbids mask name = false

/-- A masked selection takes what is named and not forbidden, or everything
    if that is nothing. -/
theorem maskedSelection_takes_iff :
    (maskedSelection mask schema).properties = []
        ∨ key ∈ Dict.keys (maskedSelection mask schema).properties
      ↔ (NamesVisible mask schema →
          schema.Names key ∧ Mask.forbids mask key = false) := by
  rw [maskedSelection_eq_nil, mem_keys_maskedSelection, imp_iff_not_or]
  refine or_congr ?_ Iff.rfl
  simp [NamesVisible]

/-- The row of a contract has the properties that the selection takes. -/
theorem field?_reshape_ne_none [TextLibrary]
    (hq : compileMasked settings mask schema none options = .ok q) (c : Json)
    (found : List LinkMatch) (hkey : key ≠ "links") :
    (q.reshape (q.rowOf c found)).field? key ≠ none
      ↔ c.field? key ≠ none
        ∧ (NamesVisible mask schema →
          schema.Names key ∧ Mask.forbids mask key = false) := by
  obtain ⟨limit, -, hcompile⟩ := Kernel.compile_of_compileMasked hq
  rw [field?_reshape hcompile c found hkey, Selection.field?_project_ne_none,
    Kernel.select_of_compileMasked hq, maskedSelection_takes_iff]

end Query

namespace Kernel

variable {k : Kernel} {mask schema : Schema} {options : QueryOptions} {q : Query}
  {session : String} {query : Json} {results : List Json} {r : Json}

/-- What a query returns are results for stored contracts that it permits. -/
theorem Sound.of_mem_query [TextLibrary] (hk : k.Sound) (hmask : k.mask session = .ok mask)
    (hquery : Schema.ofQuery query = .ok schema)
    (hq : Query.compileMasked k.settings mask schema none options = .ok q)
    (hresults : k.query session query options = .ok results) (hr : r ∈ results) :
    ∃ c ∈ k.store.contracts, k.permits mask schema c = true
      ∧ r = k.resultFor q mask c := by
  obtain ⟨limit, hlimit, hcompile⟩ := compile_of_compileMasked hq
  rw [query_of_mask hmask hquery,
    hk.results_eq hlimit (compiles_of_compile hcompile) hq] at hresults
  obtain rfl := Except.ok.inj hresults
  obtain ⟨c, hc, rfl⟩ := List.mem_map.mp hr
  obtain ⟨hmem, hpermits⟩ := List.mem_filter.mp (mem_of_mem_page hc)
  exact ⟨c, (k.store.ordered_perm options).mem_iff.mp hmem, hpermits, rfl⟩

/-- What is returned for a contract has the properties of the contract that
    are named, or all if no named one is visible, without the forbidden
    ones. -/
theorem field?_resultFor_ne_none [TextLibrary]
    (hq : Query.compileMasked k.settings mask schema none options = .ok q)
    (c : Contract) {key : String} (hkey : key ≠ "links") :
    (k.resultFor q mask c).field? key ≠ none
      ↔ c.toRow.field? key ≠ none ∧ Mask.forbids mask key = false
        ∧ (Query.NamesVisible mask schema → schema.Names key) := by
  rw [resultFor, Mask.field?_redact_ne_none hkey, Query.resultOf, Query.rowIn,
    Query.field?_reshape_ne_none hq _ _ hkey, and_assoc]
  refine and_congr_right fun _ => ?_
  constructor
  · rintro ⟨htakes, hforbids⟩
    exact ⟨hforbids, fun hvisible => (htakes hvisible).1⟩
  · rintro ⟨hforbids, htakes⟩
    exact ⟨fun hvisible => ⟨htakes hvisible, hforbids⟩, hforbids⟩

/-- A query puts out of a contract what it names and the mask does not forbid,
    if there is any such property, and else all of the contract.  A session is
    returned the same of a stored contract, without what its mask forbids. -/
theorem puts_out_iff [TextLibrary] {settings : Settings}
    (hq : Query.compileMasked settings mask schema none options = .ok q) :
    (∀ c source r, q.evaluate c source = .ok (some r) → ∀ key, key ≠ "links" →
        (r.field? key ≠ none ↔ c.field? key ≠ none
          ∧ (Query.NamesVisible mask schema →
            schema.Names key ∧ Mask.forbids mask key = false)))
      ∧ ∀ k, Reachable k → k.settings = settings → ∀ session query results,
        k.mask session = .ok mask → Schema.ofQuery query = .ok schema →
        k.query session query options = .ok results → ∀ r ∈ results,
        ∃ c ∈ k.store.contracts, k.permits mask schema c = true
          ∧ ∀ key, key ≠ "links" →
            (r.field? key ≠ none ↔ c.toRow.field? key ≠ none
              ∧ Mask.forbids mask key = false
              ∧ (Query.NamesVisible mask schema → schema.Names key)) := by
  constructor
  · intro c source r hevaluate key hkey
    obtain ⟨found, rfl⟩ := Query.row_of_evaluate hevaluate
    exact Query.field?_reshape_ne_none hq c found hkey
  · intro k hk hsettings session query results hmask hquery hresults r hr
    subst hsettings
    obtain ⟨c, hc, hpermits, rfl⟩ :=
      hk.sound.of_mem_query hmask hquery hq hresults hr
    exact ⟨c, hc, hpermits, fun key hkey => field?_resultFor_ne_none hq c hkey⟩

/-! ## Queries of the reader -/

/-- A query that describes properties and asks nothing of them. -/
def describing (names : List String) : Json :=
  .object [("properties", .object (names.map (·, .bool true)))]

/-- The schema of the query. -/
def describingSchema (names : List String) : Schema :=
  .node { properties := some (names.map (·, .bool true)) }

/-- A query that the reader meets returns one result, as the card is not
    accepted. -/
theorem query_anonymous (hquery : Schema.ofQuery query = .ok schema)
    (hcompiles : (Mask.merge anonymousMask schema).Compiles)
    (hmeets : ∀ links, (Mask.merge anonymousMask schema).meets links .contract
      (reader anonymous).toRow = true) :
    ∃ q, Query.compileMasked (guarded anonymous).settings anonymousMask schema none {}
        = .ok q
      ∧ (guarded anonymous).query "reader" query {}
        = .ok [(guarded anonymous).resultFor q anonymousMask (reader anonymous)] := by
  have sound := (guarded_reachable anonymous).sound
  have hlimit : (guarded anonymous).settings.limit ({} : QueryOptions).limit
      = .ok 100 := rfl
  obtain ⟨q, hq, -⟩ := compileMasked_ok hlimit hcompiles none
  have hreader : (guarded anonymous).permits anonymousMask schema (reader anonymous)
      = true := by
    rw [← sound.meets_merge_eq hcompiles, hmeets]
  have hcard : (guarded anonymous).permits anonymousMask schema card = false := by
    rw [permits, not_shows_card, Bool.false_and]
  have honly : (guarded anonymous).store.contracts.filter
      ((guarded anonymous).permits anonymousMask schema) = [reader anonymous] := by
    simp [contracts_guarded reread_anonymous, hreader, hcard]
  exact ⟨q, hq, sound.query_of_single mask_anonymous hquery hq honly⟩

/-- A query of ids and slugs returns the slug alone, as ids are forbidden. -/
theorem puts_out_iff_anonymous :
    ∃ r, (guarded anonymous).query "reader" (describing ["id", "slug"]) {} = .ok [r]
      ∧ r.field? "slug" ≠ none ∧ r.field? "name" = none ∧ r.field? "id" = none := by
  have hdescribed : Schema.ofQuery (describing ["id", "slug"])
      = .ok (describingSchema ["id", "slug"]) := rfl
  obtain ⟨q, hq, hquery⟩ := query_anonymous hdescribed
    (Validator.ofSchema_ok.mp ⟨_, rfl⟩) fun _ => rfl
  obtain ⟨c, -, -, hfields⟩ := (puts_out_iff hq).2 _ (guarded_reachable anonymous) rfl
    _ _ _ mask_anonymous rfl hquery _ (List.mem_singleton_self _)
  have hvisible : Query.NamesVisible anonymousMask (describingSchema ["id", "slug"]) :=
    ⟨"slug", by decide, by decide⟩
  refine ⟨_, hquery, ?_, ?_, ?_⟩
  · exact (hfields "slug" (by decide)).mpr ⟨nofun, by decide, fun _ => by decide⟩
  · by_contra hname
    obtain ⟨-, -, hnamed⟩ := (hfields "name" (by decide)).mp hname
    exact absurd (hnamed hvisible) (by decide)
  · by_contra hid
    obtain ⟨-, hforbids, -⟩ := (hfields "id" (by decide)).mp hid
    exact absurd hforbids (by decide)

/-- A query of ids, which the mask forbids, returns slugs. -/
theorem puts_out_unnamed_slug :
    Reachable (guarded anonymous)
      ∧ (guarded anonymous).mask "reader" = .ok anonymousMask
      ∧ Schema.ofQuery (describing ["id"]) = .ok (describingSchema ["id"])
      ∧ (describingSchema ["id"]).Names "id"
      ∧ ∃ r, (guarded anonymous).query "reader" (describing ["id"]) {} = .ok [r]
        ∧ r.field? "slug" ≠ none ∧ ¬(describingSchema ["id"]).Names "slug" := by
  have hdescribed : Schema.ofQuery (describing ["id"])
      = .ok (describingSchema ["id"]) := rfl
  obtain ⟨q, hq, hquery⟩ := query_anonymous hdescribed
    (Validator.ofSchema_ok.mp ⟨_, rfl⟩) fun _ => rfl
  have hnone : ¬Query.NamesVisible anonymousMask (describingSchema ["id"]) := by
    rintro ⟨name, hnamed, hforbids⟩
    obtain rfl : name = "id" := List.mem_singleton.mp hnamed
    exact absurd hforbids (by decide)
  refine ⟨guarded_reachable anonymous, mask_anonymous, hdescribed, by decide, _, hquery,
    ?_, by decide⟩
  exact (field?_resultFor_ne_none hq _ (by decide)).mpr
    ⟨nofun, by decide, fun hvisible => absurd hvisible hnone⟩

end Kernel

end LinkedContracts
