import LinkedContracts.Proofs.Kernel.Frame
import LinkedContracts.Proofs.Kernel.Replaced
import LinkedContracts.Proofs.Schema.Columns

/-! # Contracts that fit their types

    Before a contract is written, a document is checked against the schema
    of a type: the contract itself and its type, or, for a patch, the patched
    document and the type that the contract had before.  What is stored fits
    its type if that is the type of the check, if the schema reads only what
    is stored as it was given, and if the write does not reach the type. -/

namespace LinkedContracts

namespace Kernel

variable {k : Kernel} {mask schema : Schema} {session reference : String}
  {r : Reference} {definition image : Json} {operations : List PatchOperation}
  {type : String} {c written : Contract}

/-! ## Checks -/

section

variable [TextLibrary]

/-- A check succeeds on what meets the schema. -/
theorem Sound.check_ok (hk : k.Sound) (document : Json) :
    schema.check document k.linkSource = .ok () ↔
      schema.Compiles
        ∧ schema.meets k.store.rowsLinked .contract document = true := by
  constructor
  · intro h
    obtain ⟨v, hv, h⟩ := except_bind_ok h
    have hcompiles := Validator.ofSchema_ok.mp ⟨v, hv⟩
    refine ⟨hcompiles, ?_⟩
    have haccepts := hk.accepts_eq hcompiles document
    rw [accepts, hv] at haccepts
    obtain ⟨report, hreport, h⟩ := except_bind_ok h
    obtain ⟨accepted, haccepted, hreport⟩ := except_bind_ok hreport
    obtain rfl := Except.ok.inj (haccepted.symm.trans haccepts)
    cases hmeets : schema.meets k.store.rowsLinked .contract document with
    | true => rfl
    | false =>
        rw [hmeets] at hreport
        obtain ⟨failures, -, hreport⟩ := except_bind_ok hreport
        obtain rfl := Except.ok.inj hreport
        cases failures <;> cases h
  · rintro ⟨hcompiles, hmeets⟩
    obtain ⟨v, hv⟩ := Validator.ofSchema_ok.mpr hcompiles
    have haccepts := hk.accepts_eq hcompiles document
    rw [accepts, hv, hmeets] at haccepts
    have haccepted : v.accepts document k.linkSource = .ok true := haccepts
    rw [Schema.check, hv]
    simp [Validator.validate, haccepted, Report.passed, bind, Except.bind, pure,
      Except.pure]

/-- What was made of a contract by a patch that writes, and what it was
    checked against. -/
theorem Sound.checked_of_patched (hk : k.Sound) {full : Contract} {p : Patched}
    (hfull : k.store.find? r.slug r.version = some full)
    (hp : k.patched mask reference r operations = .ok p)
    (hc : p.contract = some c) :
    ∃ schema image, k.typeSchema (Reference.ofType full.type) = .ok schema
      ∧ Patch.apply full.toJson operations = .ok image
      ∧ schema.check image k.linkSource = .ok ()
      ∧ readPatched image = .ok c := by
  obtain ⟨full', view, hfull', -, ⟨-, -, hnone⟩ | hsteps⟩ := hk.steps_of_patched hp
  · rw [hc] at hnone
    cases hnone
  obtain rfl := Option.some.inj (hfull.symm.trans hfull')
  obtain ⟨schema, image, hschema, happly, hcheck, -, hread⟩ := hsteps.checked
  refine ⟨schema, image, hschema, happly, ?_, hread c hc⟩
  rw [checkPatched] at hcheck
  split at hcheck
  · cases hcheck
  · exact hcheck

/-! ## Requests -/

/-- What a session asks to have written. -/
inductive Request where
  | insert (session : String) (definition : Json)
  | replace (session : String) (definition : Json)
  | patch (session reference : String) (operations : List PatchOperation)

/-- What is done about a request. -/
def Request.perform : Request → Action Unit
  | insert session definition => do let _ ← insertFor session definition
  | replace session definition => do let _ ← replaceFor session definition
  | patch session reference operations => do
      let _ ← patchFor session reference operations

/-- Whether a request is one for a patch. -/
def Request.isPatch : Request → Bool
  | patch .. => true
  | _ => false

/-- What a request has written: a contract, once a document has been checked
    against the schema of a type. -/
inductive Request.Checks (k : Kernel) :
    Request → String → Json → Contract → Prop where
  | insert {session : String} {definition : Json} {mask : Schema} {c : Contract}
      (hmask : k.mask session = .ok mask)
      (hc : ((prepare mask definition).run k).1 = .ok c) :
      Checks k (.insert session definition) c.type c.toJson c
  | replace {session : String} {definition : Json} {mask : Schema} {c : Contract}
      (hmask : k.mask session = .ok mask)
      (hc : ((prepare mask definition).run k).1 = .ok c) :
      Checks k (.replace session definition) c.type c.toJson c
  | patch {session reference : String} {operations : List PatchOperation}
      {mask : Schema} {r : Reference} {full c : Contract} {p : Patched}
      {image : Json} (hmask : k.mask session = .ok mask)
      (href : Reference.parse reference = .ok r)
      (hfull : k.store.find? r.slug r.version = some full)
      (hp : k.patched mask reference r operations = .ok p)
      (hc : p.contract = some c)
      (happly : Patch.apply full.toJson operations = .ok image) :
      Checks k (.patch session reference operations)
        (Reference.ofType full.type) image c

/-- What is checked meets the schema. -/
theorem Request.Checks.fits {request : Request} (hk : k.Sound)
    (h : request.Checks k type image c) :
    ∃ schema, k.typeSchema type = .ok schema
      ∧ schema.check image k.linkSource = .ok () := by
  cases h with
  | insert hmask hc => exact (prepared_of_prepare hc).fits
  | replace hmask hc => exact (prepared_of_prepare hc).fits
  | patch hmask href hfull hp hc happly =>
      obtain ⟨schema, image', hschema, happly', hcheck, -⟩ :=
        hk.checked_of_patched hfull hp hc
      obtain rfl := Except.ok.inj (happly.symm.trans happly')
      exact ⟨schema, hschema, hcheck⟩

/-- A request leaves the contents of the store, or succeeds and writes what
    was checked. -/
theorem Request.perform_store (k : Kernel) (hk : k.Sound) (request : Request) :
    let after := request.perform.run k
    SameContents after.2.store k.store
      ∨ ∃ type image c written store mode now, request.Checks k type image c
        ∧ k.store.write now mode c = .ok (written, store)
        ∧ Left after () store := by
  cases request with
  | insert session definition =>
      simp only [Request.perform, Stateful.run_bind]
      have hstore := insertFor_store k session definition
      cases hrun : (insertFor session definition).run k with
      | mk result after =>
          rw [hrun] at hstore
          rcases hstore with
            ⟨⟨e, rfl⟩, hsame⟩ | ⟨mask, c, written, store, hmask, hc, hwrite, rfl, hleft⟩
          · exact .inl hsame
          · exact .inr ⟨_, _, c, written, store, _, _, .insert hmask hc, hwrite, rfl, hleft⟩
  | replace session definition =>
      simp only [Request.perform, Stateful.run_bind]
      have hstore := replaceFor_store k session definition
      cases hrun : (replaceFor session definition).run k with
      | mk result after =>
          rw [hrun] at hstore
          rcases hstore with
            ⟨⟨e, rfl⟩, hsame⟩
              | ⟨mask, c, written, store, hmask, hc, -, hwrite, rfl, hleft⟩
          · exact .inl hsame
          · exact .inr ⟨_, _, c, written, store, _, _, .replace hmask hc, hwrite, rfl, hleft⟩
  | patch session reference operations =>
      simp only [Request.perform, Stateful.run_bind]
      have hstore := patchFor_store k session reference operations
      cases hrun : (patchFor session reference operations).run k with
      | mk result after =>
          rw [hrun] at hstore
          rcases hstore with hsame | ⟨r, mask, p, c, written, store, href, hmask, hp, hc,
            hwrite, rfl, hleft⟩
          · cases result with
            | ok view => exact .inl hsame
            | error e => exact .inl hsame
          · obtain ⟨full, view, hworks⟩ := hk.works_of_patched hp
            obtain ⟨schema, image, -, happly, -, -⟩ :=
              hk.checked_of_patched hworks.named hp hc
            exact .inr ⟨_, image, c, written, store, _, _,
              .patch hmask href hworks.named hp hc happly, hwrite, rfl, hleft⟩

/-- An insert of a contract that is new and no link puts it. -/
theorem Request.rows_insert (hdepth : k.depth = 0) (hmask : k.mask session = .ok mask)
    (hc : ((prepare mask definition).run k).1 = .ok c)
    (hcanonical : Store.canonical c = .ok c) (hnew : k.store.existing? c = none)
    (hlink : Link.ofContract? c = none) :
    ((Request.insert session definition).perform.run k).2.store.rows
      = (k.store.put c).rows := by
  have hrun := write_new (k := { k with supply := k.supply.next }) hdepth hcanonical
    hnew hlink .insert
  rw [Request.perform, Stateful.run_bind, insertFor_run, hmask]
  dsimp only
  rw [hc]
  dsimp only
  rw [Kernel.insert, hrun]
  rfl

theorem Request.program (request : Request) : Program request.perform := by
  cases request with
  | insert session definition =>
      exact .bind (.insert session definition) fun _ => .reading fun _ => .ok ()
  | replace session definition =>
      exact .bind (.replace session definition) fun _ => .reading fun _ => .ok ()
  | patch session reference operations =>
      exact .bind (.patch session reference operations) fun _ => .reading fun _ => .ok ()

end

/-! ## Columns -/

/-- The columns that are stored as they are given. -/
def givenColumns : List String :=
  ["active", "capabilities", "data", "markers", "name", "requires", "slug", "tags",
   "type"]

theorem exact_of_given {key : String} (hkey : key ∈ givenColumns) :
    key ∈ Contract.exactColumns ∧ key ≠ "id" ∧ key ≠ "version" ∧ key ≠ "links" := by
  revert key
  decide

theorem field?_toJson (c : Contract) {key : String} (hkey : key ≠ "links") :
    c.toJson.field? key = Dict.find? c.rowFields key :=
  Dict.find?_insert_of_ne _ _ (Ne.symm hkey)

/-- What the checked document says of a column is what the contract has. -/
theorem Request.Checks.find?_rowFields [TextLibrary] {request : Request} (hk : k.Sound)
    (h : request.Checks k type image c) {key : String} {j : Json}
    (hkey : key ∈ Contract.exactColumns) (hj : image.field? key = some j) :
    Dict.find? c.rowFields key = some j := by
  have hlinks : key ≠ "links" := by
    rintro rfl
    exact absurd hkey (by decide)
  cases h with
  | insert hmask hc => rwa [field?_toJson c hlinks] at hj
  | replace hmask hc => rwa [field?_toJson c hlinks] at hj
  | patch hmask href hfull hp hc happly =>
      obtain ⟨schema, image', -, happly', -, hread⟩ := hk.checked_of_patched hfull hp hc
      obtain rfl := Except.ok.inj (happly.symm.trans happly')
      obtain ⟨fields, rfl⟩ := Patch.object_steps happly
      exact (Contract.readFrom_of_ofFields
        (ofJson?_of_readPatched hread)).find?_rowFields hkey hj

/-- What is inserted or put in the place of another is checked as it is given,
    against its own type. -/
theorem Request.Checks.own [TextLibrary] {request : Request} (h : request.Checks k type image c)
    (hpatch : request.isPatch = false) :
    Reference.ofType c.type = type
      ∧ ∀ key ∈ givenColumns, (image.field? key).isSome := by
  have given : ∀ key ∈ givenColumns, (c.toJson.field? key).isSome := by
    intro key hkey
    have hcolumn : key ∈ Dict.keys c.rowFields := by
      show key ∈ ["active", "capabilities", "created_at", "data", "id", "linked_at",
        "markers", "name", "requires", "slug", "tags", "type", "updated_at", "version"]
      revert key
      decide
    rw [field?_toJson c (exact_of_given hkey).2.2.2, Option.isSome_iff_ne_none]
    exact fun hnone => Dict.find?_eq_none.mp hnone hcolumn
  cases h with
  | insert hmask hc => exact ⟨(prepared_of_prepare hc).pinned, given⟩
  | replace hmask hc => exact ⟨(prepared_of_prepare hc).pinned, given⟩
  | patch => cases hpatch

/-- A written contract has the columns of the one that it was made of, but
    for its id, its version and its times. -/
theorem find?_written {s t : Store} {now : Instant} {mode : WriteMode} {key : String}
    (hwrite : s.write now mode c = .ok (written, t)) (hkey : key ∈ givenColumns) :
    Dict.find? written.rowFields key = Dict.find? c.rowFields key := by
  obtain ⟨hexact, hid, hversion, -⟩ := exact_of_given hkey
  obtain ⟨e, he, hwritten⟩ := Store.write_ok hwrite
  obtain ⟨-, -, v, -, rfl⟩ := Store.canonical_ok he
  rcases hwritten with ⟨found, -, -, rfl, -⟩ | ⟨-, rfl, -⟩
  · exact Store.find?_replacing now c found _ hexact hid hversion
  · exact Store.find?_canonical c v.text hversion

/-! ## Fitting -/

/-- When the contract that is written fits its type as the checked document
    did. -/
structure Settles (k : Kernel) (type : String) (schema : Schema) (image : Json)
    (written : Contract) : Prop where
  /-- Its type is that of the check. -/
  checked : Reference.ofType written.type = type
  /-- The schema reads only columns that are stored as they are given. -/
  reads : schema.Reads givenColumns
  /-- The document gives them all. -/
  given : ∀ key ∈ givenColumns, (image.field? key).isSome
  /-- What is written is read back as it is. -/
  reread : written.reread = some written
  /-- The write does not reach the type. -/
  spared : ∀ r, Reference.parse type = .ok r → k.store.Spares written r.slug
  loopless : ¬Store.Links written written.id

/-- The schema of a type stays where a write does not reach the type. -/
theorem Sound.typeSchema_of_write (hk : k.Sound) {l : Kernel} {store : Store}
    {now : Instant} {mode : WriteMode}
    (hwrite : k.store.write now mode c = .ok (written, store))
    (hrows : l.store.rows = store.rows)
    (hspared : ∀ r, Reference.parse type = .ok r → k.store.Spares written r.slug) :
    l.typeSchema type = k.typeSchema type := by
  rw [typeSchema, typeSchema]
  cases href : Reference.parse type with
  | error e => rfl
  | ok r =>
      have hsame : l.store.find? r.slug r.version = store.find? r.slug r.version :=
        Store.find?_of_named (by rw [Store.named, Store.named, hrows]) _
      dsimp only
      rw [hsame, hk.store.find?_of_write hwrite (hspared r href)]

/-- A request that writes has checked a document of what it writes against
    the schema of a type.  What it writes fits its type afterwards where it
    settles as it was checked. -/
theorem fits_type [TextLibrary] (hk : Reachable k) (request : Request) :
    let after := request.perform.run k
    SameContents after.2.store k.store
      ∨ ∃ type image c written store mode now schema, request.Checks k type image c
        ∧ k.store.write now mode c = .ok (written, store)
        ∧ Left after () store
        ∧ k.typeSchema type = .ok schema
        ∧ schema.check image k.linkSource = .ok ()
        ∧ (request.isPatch = false → Reference.ofType written.type = type
          ∧ ∀ key ∈ givenColumns, (image.field? key).isSome)
        ∧ (k.Settles type schema image written →
          after.2.store.contract? written.id = some written
            ∧ after.2.typeSchema (Reference.ofType written.type) = .ok schema
            ∧ schema.check written.toJson after.2.linkSource = .ok ()) := by
  have hsound := hk.sound
  have hafter : (request.perform.run k).2.Sound :=
    (Reachable.ran request.program hk).sound
  rcases request.perform_store k hsound with
    hsame | ⟨type, image, c, written, store, mode, now, hchecks, hwrite, hleft⟩
  · exact .inl hsame
  obtain ⟨schema, hschema, hcheck⟩ := hchecks.fits hsound
  refine .inr ⟨type, image, c, written, store, mode, now, schema, hchecks, hwrite,
    hleft, hschema, hcheck, fun hpatch => ?_, fun hsettles => ⟨?_, ?_, ?_⟩⟩
  · have htype : written.type = c.type := Store.type_written hwrite
    rw [htype]
    exact hchecks.own hpatch
  · -- it is stored, as no stamp of a link writes over it
    have hfound := hsound.store.find?_written hwrite hsettles.loopless
    rw [Store.contract?, hleft.2.1, hfound, Option.bind_some,
      StoredRow.contents_ofContract, hsettles.reread]
  · rw [hsettles.checked, hsound.typeSchema_of_write hwrite hleft.2.1 hsettles.spared,
      hschema]
  · -- the schema reads of it what it read of the checked document
    obtain ⟨hcompiles, hmeets⟩ := (hsound.check_ok image).mp hcheck
    refine (hafter.check_ok written.toJson).mpr ⟨hcompiles, ?_⟩
    rw [← hmeets]
    refine (hsettles.reads.meets_congr fun key hkey => ?_).symm
    obtain ⟨j, hj⟩ := Option.isSome_iff_exists.mp (hsettles.given key hkey)
    obtain ⟨hexact, -, -, hlinks⟩ := exact_of_given hkey
    rw [hj, field?_toJson written hlinks, find?_written hwrite hkey,
      hchecks.find?_rowFields hsound hexact hj]

/-! ## Another card -/

theorem prepare_mine :
    ((prepare titledMask (offer "mine")).run (guarded titled)).1
      = .ok (mine "mine") :=
  prepare_offer (c := { mine "mine" with type := "card" }) (by decide +kernel)
    (by decide +kernel)

theorem id_ne_mine {d : Contract} (hd : d ∈ (guarded titled).store.contracts) :
    d.id ≠ "mine" :=
  have hids : ∀ d ∈ (guarded titled).store.contracts, d.id ≠ "mine" :=
    forall_mem_guarded reread_titled (by decide) (by decide)
  hids d hd

theorem existing?_mine : (guarded titled).store.existing? (mine "mine") = none := by
  cases hfound : (guarded titled).store.existing? (mine "mine") with
  | none => rfl
  | some d =>
      obtain ⟨hd, ⟨hslug, -⟩ | ⟨-, hid⟩⟩ :=
        (guarded_reachable titled).sound.store.existing?_eq_some.mp hfound
      · exact absurd hslug (slug_ne_mine _ hd)
      · exact absurd hid (id_ne_mine hd)

theorem rows_insert_mine :
    ((Request.insert "reader" (offer "mine")).perform.run
        (guarded titled)).2.store.rows
      = ((guarded titled).store.put (mine "mine")).rows :=
  Request.rows_insert (depth_guarded titled) mask_titled prepare_mine rfl
    existing?_mine (ofContract?_of_card rfl)

theorem settles_mine :
    (guarded titled).Settles "card@1.0.0" (.bool true) (mine "mine").toJson
      (mine "mine") where
  checked := by rfl
  reads := .bool true
  given := by decide
  reread := Contract.reread_eq rfl rfl rfl parse?_start rfl rfl nofun
  spared := by
    intro r href
    obtain rfl : ⟨"card", .exact Version.initial⟩ = r := Except.ok.inj href
    exact ⟨by decide, fun d hd _ => (id_ne_mine hd).symm,
      fun d _ _ => not_links_of_card rfl d.id⟩
  loopless := not_links_of_card rfl _

/-- The other card fits the type of the card once it is inserted. -/
theorem fits_type_insert :
    let after := ((Request.insert "reader" (offer "mine")).perform.run
      (guarded titled)).2
    after.store.contract? "mine" = some (mine "mine")
      ∧ after.typeSchema "card@1.0.0" = .ok (.bool true)
      ∧ (Schema.bool true).check (mine "mine").toJson after.linkSource = .ok () := by
  rcases fits_type (guarded_reachable titled) (.insert "reader" (offer "mine")) with
    hsame | ⟨type, image, c, written, store, mode, now, schema, hchecks, hwrite, -,
      hschema, -, -, hfits⟩
  · have hput := Store.find?_put_self (guarded titled).store (mine "mine")
    rw [← rows_insert_mine, hsame.1, rows_guarded] at hput
    cases hput
  cases hchecks with
  | insert hmask hc =>
      obtain rfl := Except.ok.inj (mask_titled.symm.trans hmask)
      obtain rfl := Except.ok.inj (prepare_mine.symm.trans hc)
      obtain rfl := Except.ok.inj ((typeSchema_card reread_titled).symm.trans hschema)
      obtain ⟨e, he, ⟨found, hfound, -⟩ | ⟨-, rfl, -⟩⟩ := Store.write_ok hwrite
      · obtain rfl : mine "mine" = e := Except.ok.inj he
        cases existing?_mine.symm.trans hfound
      · obtain rfl : mine "mine" = written := Except.ok.inj he
        exact hfits settles_mine

/-! ## A card of no type -/

/-- The card with a type that there is not. -/
def untyped : Contract := { card with type := "missing@1.0.0" }

/-- The patch that gives the card the type. -/
def untype : List PatchOperation := [.replace "/type" (.string "missing@1.0.0")]

theorem views_untype :
    (guarded discreet).Views discreetMask untype
      (Mask.redact card.toRow discreetMask) (Mask.redact untyped.toRow discreetMask) :=
  (guarded_reachable discreet).sound.views_of_meets compiles_discreetMask (by decide +kernel)
    (by decide +kernel) (by decide +kernel)

theorem alters_untype : Alters untype untyped untyped :=
  ⟨rfl, by decide +kernel, by decide +kernel, by decide +kernel, ⟨rfl, rfl⟩, ⟨rfl, rfl⟩,
    by decide +kernel⟩

theorem typeSchema_missing {l : Kernel} (hrows : l.store.rows
      = ((guarded discreet).store.put (Store.replacing ⟨2, 0⟩ untyped card)).rows) :
    l.typeSchema "missing@1.0.0" = .error (.unknownType "missing@1.0.0") := by
  have href : Reference.parse "missing@1.0.0"
      = .ok ⟨"missing", .exact Version.initial⟩ := rfl
  have hnone : l.store.find? "missing" (.exact Version.initial) = none := by
    cases hfound : l.store.find? "missing" (.exact Version.initial) with
    | none => rfl
    | some d =>
        obtain ⟨p, hp, hslug, -, -⟩ := Store.row_of_versioned? hfound
        rw [hrows] at hp
        rcases Dict.mem_of_mem_insert hp with rfl | hp
        · exact absurd hslug (by decide)
        · have hp := (List.mem_filter.mp hp).1
          rw [rows_guarded] at hp
          rcases List.mem_cons.mp hp with rfl | hp
          · exact absurd hslug (by decide)
          · obtain rfl := List.mem_singleton.mp hp
            exact absurd hslug (by decide)
  rw [typeSchema, href]
  dsimp only
  rw [hnone]
  rfl

/-- A patch of the type of the card leaves it with a type that there is
    not. -/
theorem patch_leaves_untyped :
    Reachable (guarded discreet)
      ∧ (guarded discreet).mask "reader" = .ok discreetMask
      ∧ ((patchFor "reader" "card@1.0.0" untype).run (guarded discreet)).1
        = .ok (Mask.redact untyped.toRow discreetMask)
      ∧ let after := ((patchFor "reader" "card@1.0.0" untype).run
          (guarded discreet)).2
        ∃ stored, after.store.contract? "card" = some stored
          ∧ stored.type = "missing@1.0.0"
          ∧ after.typeSchema (Reference.ofType stored.type)
            = .error (.unknownType "missing@1.0.0") := by
  have hafter : (Store.replacing ⟨2, 0⟩ untyped card).reread
      = some (Store.replacing ⟨2, 0⟩ untyped card) :=
    Contract.reread_eq rfl rfl rfl parse?_start rfl rfl parse?_next
  obtain ⟨hresult, hrows⟩ := patch_puts reread_discreet mask_discreet
    visible_card_discreet views_untype alters_untype
    (existing?_card reread_discreet rfl rfl) (by decide +kernel)
  refine ⟨guarded_reachable _, mask_discreet, hresult,
    Store.replacing ⟨2, 0⟩ untyped card, ?_, rfl, ?_⟩
  · have hput := Store.contract?_put (guarded discreet).store
      (Store.replacing ⟨2, 0⟩ untyped card)
    rw [Store.contract?, hrows]
    exact hput.trans hafter
  · exact typeSchema_missing hrows

end Kernel

end LinkedContracts
