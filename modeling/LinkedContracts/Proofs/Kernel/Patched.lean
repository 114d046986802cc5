import LinkedContracts.Proofs.Kernel.Guarded

/-! # Who may patch what

    A patch either leaves the contracts of the store as they are or writes
    one contract.  It gets to write where the session sees the contract that
    the reference names, and also where its mask forbids ids and it sees any
    contract at all. -/

namespace LinkedContracts

namespace Store

variable {s : Store} {c : Contract}

theorem later_mem (a b : Version × Contract) : later a b = a ∨ later a b = b := by
  rw [later]
  split
  · exact .inl rfl
  · exact .inr rfl

theorem foldl_later_mem (first : Version × Contract)
    (rest : List (Version × Contract)) :
    rest.foldl later first ∈ first :: rest := by
  induction rest generalizing first with
  | nil => exact List.mem_cons_self
  | cons next rest ih =>
      rw [List.foldl_cons]
      rcases List.mem_cons.mp (ih (later first next)) with h | h
      · rw [h]
        rcases later_mem first next with hf | hn
        · rw [hf]
          exact List.mem_cons_self
        · rw [hn]
          exact List.mem_cons_of_mem _ List.mem_cons_self
      · exact List.mem_cons_of_mem _ (List.mem_cons_of_mem _ h)

theorem mem_contracts_of_versions {slug : String} {v : Version}
    (h : (v, c) ∈ s.versions slug) : c ∈ s.contracts := by
  obtain ⟨⟨id, row⟩, hrow, hc⟩ := List.mem_filterMap.mp h
  obtain ⟨-, hc⟩ := Option.ite_none_right_eq_some.mp hc
  obtain ⟨d, hd, hc⟩ := Option.bind_eq_some_iff.mp hc
  obtain ⟨w, -, heq⟩ := Option.map_eq_some_iff.mp hc
  obtain ⟨rfl, rfl⟩ := Prod.mk.inj heq
  exact mem_contracts.mpr ⟨_, hrow, hd⟩

/-- What a reference names is a stored contract. -/
theorem mem_of_find? {slug : String} {choice : VersionChoice}
    (h : s.find? slug choice = some c) : c ∈ s.contracts := by
  cases choice with
  | exact v =>
      obtain ⟨p, hp, -, -, hc⟩ := row_of_versioned? h
      exact mem_contracts.mpr ⟨p, hp, hc⟩
  | latest =>
      rw [find?, latest?] at h
      split at h
      · cases h
      next first rest hversions =>
        obtain rfl := Option.some.inj h
        have hmem := foldl_later_mem first rest
        rw [← hversions] at hmem
        exact mem_contracts_of_versions hmem

end Store

namespace Kernel

variable {k : Kernel} {session reference : String} {mask : Schema}
  {r : Reference} {operations : List PatchOperation}

/-! ## What a patch does -/

section

variable [TextLibrary]

/-- What a session made of a view by operations. -/
structure Views (k : Kernel) (mask : Schema) (operations : List PatchOperation)
    (view patched : Json) : Prop where
  apply : Patch.apply view operations = .ok patched
  allowed : forbiddenChange mask view patched = none
  accepted : k.accepts mask patched = .ok true

theorem views_of_patchView {view patched : Json}
    (h : k.patchView mask reference view operations = .ok patched) :
    k.Views mask operations view patched := by
  simp only [patchView, bind, Except.bind] at h
  split at h
  · cases h
  next applied happly =>
    split at h
    · cases h
    next hallowed =>
      split at h
      · cases h
      next accepted haccepts =>
        split at h
        next haccepted =>
          obtain rfl := Except.ok.inj h
          obtain rfl := haccepted
          exact ⟨happly, hallowed, haccepts⟩
        · cases h

theorem patchView_of_views {view patched : Json}
    (h : k.Views mask operations view patched) :
    k.patchView mask reference view operations = .ok patched := by
  simp [patchView, h.apply, h.allowed, h.accepted, bind, Except.bind, pure,
    Except.pure]

/-- What operations make of a view stands where it changes nothing forbidden and
    meets the mask. -/
theorem Sound.views_of_meets (hk : k.Sound) (hmask : mask.Compiles) {view patched : Json}
    (happly : Patch.apply view operations = .ok patched)
    (hallowed : forbiddenChange mask view patched = none)
    (hmeets : mask.meets k.store.rowsLinked .contract patched = true) :
    k.Views mask operations view patched where
  apply := happly
  allowed := hallowed
  accepted := by rw [hk.accepts_eq hmask, hmeets]

/-- A patch of a contract, at work on the contract and on what the session
    sees in its place. -/
structure Works (k : Kernel) (mask : Schema) (r : Reference)
    (operations : List PatchOperation) (full : Contract) (view : Json)
    (p : Patched) : Prop where
  named : k.store.find? r.slug r.version = some full
  visible : k.visible mask full.id = .ok (some view)
  views : operations = [] ∧ p.view = view ∧ p.contract = none
    ∨ k.Views mask operations view p.view
  writes : ∀ c, p.contract = some c →
    ∃ patched, Patch.apply full.toJson operations = .ok patched
      ∧ readPatched patched = .ok c

/-- The steps of a patch that gets to work on the contract that a reference
    names. -/
structure Steps (k : Kernel) (mask : Schema) (reference : String)
    (operations : List PatchOperation) (full : Contract) (patchedView : Json)
    (contract : Option Contract) (view : Json) : Prop where
  views : k.patchView mask reference view operations = .ok patchedView
  checked : ∃ schema image, k.typeSchema (Reference.ofType full.type) = .ok schema
    ∧ Patch.apply full.toJson operations = .ok image
    ∧ k.checkPatched schema image = .ok ()
    ∧ (contract = none ↔ image.equal full.toJson = true)
    ∧ ∀ c, contract = some c → readPatched image = .ok c

theorem Sound.steps_of_patched (hk : k.Sound) {p : Patched}
    (h : k.patched mask reference r operations = .ok p) :
    ∃ full view, k.store.find? r.slug r.version = some full
      ∧ k.visible mask full.id = .ok (some view)
      ∧ (operations = [] ∧ p.view = view ∧ p.contract = none
        ∨ k.Steps mask reference operations full p.view p.contract view) := by
  rw [patched] at h
  cases hfull : k.store.find? r.slug r.version with
  | none => rw [hfull] at h; cases h
  | some full =>
      have hid := hk.store.contract?_eq_some.mpr ⟨Store.mem_of_find? hfull, rfl⟩
      rw [hfull] at h
      dsimp only at h
      rw [hid] at h
      dsimp only at h
      obtain ⟨visible, hvisible, h⟩ := except_bind_ok h
      cases visible with
      | none => cases h
      | some view =>
          refine ⟨full, view, rfl, hvisible, ?_⟩
          dsimp only at h
          split at h
          next hempty =>
            obtain rfl := Except.ok.inj h
            exact .inl ⟨List.isEmpty_iff.mp hempty, rfl, rfl⟩
          right
          obtain ⟨schema, hschema, h⟩ := except_bind_ok h
          obtain ⟨patchedView, hview, h⟩ := except_bind_ok h
          obtain ⟨image, happly, h⟩ := except_bind_ok h
          obtain ⟨_, hcheck, h⟩ := except_bind_ok h
          split at h
          next hequal =>
            obtain rfl := Except.ok.inj h
            exact ⟨hview, schema, image, hschema, happly, hcheck, iff_of_true rfl hequal,
              nofun⟩
          next hdiffers =>
            obtain ⟨c, hread, h⟩ := except_bind_ok h
            obtain rfl := Except.ok.inj h
            refine ⟨hview, schema, image, hschema, happly, hcheck,
              iff_of_false nofun hdiffers, ?_⟩
            rintro c ⟨⟩
            exact hread

theorem Sound.works_of_patched (hk : k.Sound) {p : Patched}
    (h : k.patched mask reference r operations = .ok p) :
    ∃ full view, k.Works mask r operations full view p := by
  obtain ⟨full, view, hfull, hvisible, hnothing | hsteps⟩ := hk.steps_of_patched h
  · refine ⟨full, view, hfull, hvisible, .inl hnothing, fun c hc => ?_⟩
    rw [hnothing.2.2] at hc
    cases hc
  · obtain ⟨schema, image, -, happly, -, -, hread⟩ := hsteps.checked
    exact ⟨full, view, hfull, hvisible, .inr (views_of_patchView hsteps.views),
      fun c hc => ⟨image, happly, hread c hc⟩⟩

end

/-! ## Where a patch leaves the store -/

/-- Stores with the same contracts and links. -/
def SameContents (s t : Store) : Prop := s.rows = t.rows ∧ s.edges = t.edges

theorem SameContents.trans {s t u : Store} (hst : SameContents s t)
    (htu : SameContents t u) : SameContents s u :=
  ⟨hst.1.trans htu.1, hst.2.trans htu.2⟩

/-- An operation succeeded with a result and left the contents of a store. -/
def Left {α : Type} (after : Except Error α × Kernel) (a : α) (s : Store) : Prop :=
  after.1 = .ok a ∧ SameContents after.2.store s

/-- A transaction has the result of its body, and its contents unless it
    failed and was undone. -/
theorem transaction_store {α : Type} (body : Action α) (k : Kernel) :
    let inside := body.run { k with depth := k.depth + 1 }
    let after := (transaction body).run k
    after.1 = inside.1
      ∧ (SameContents after.2.store inside.2.store
        ∨ (∃ e, inside.1 = .error e) ∧ SameContents after.2.store k.store) := by
  simp only [transaction, ExceptT.run]
  cases body { k with depth := k.depth + 1 } with
  | mk result inside =>
      dsimp only
      split
      · exact ⟨rfl, .inl ⟨rfl, rfl⟩⟩
      · cases result with
        | ok a => exact ⟨rfl, .inl ⟨rfl, rfl⟩⟩
        | error e => exact ⟨rfl, .inr ⟨⟨e, rfl⟩, rfl, rfl⟩⟩

/-- What a write does inside its transaction. -/
def writeInside (mode : WriteMode) (c : Contract) : Action Contract :=
  fun k => match k.store.write k.supply.now mode c with
    | .ok (written, store) =>
        (.ok written, { k with store := store, supply := k.supply.next })
    | .error e => (.error e, k)

theorem write_eq (mode : WriteMode) (c : Contract) :
    write mode c = transaction (writeInside mode c) := rfl

/-- A write has the contents of the written store, or fails and leaves its
    own. -/
theorem write_store (mode : WriteMode) (c : Contract) (k : Kernel) :
    let after := (write mode c).run k
    (∃ e, k.store.write k.supply.now mode c = .error e ∧ after.1 = .error e
        ∧ SameContents after.2.store k.store)
      ∨ ∃ written store,
        k.store.write k.supply.now mode c = .ok (written, store)
          ∧ Left after written store := by
  rw [write_eq]
  have hstore := transaction_store (writeInside mode c) k
  simp only [ExceptT.run, writeInside] at hstore ⊢
  cases hwrite : k.store.write k.supply.now mode c with
  | error e =>
      rw [hwrite] at hstore
      refine .inl ⟨e, rfl, hstore.1, ?_⟩
      rcases hstore.2 with h | h
      · exact h
      · exact h.2
  | ok result =>
      obtain ⟨written, store⟩ := result
      rw [hwrite] at hstore
      refine .inr ⟨written, store, rfl, hstore.1, ?_⟩
      rcases hstore.2 with h | ⟨⟨e, he⟩, -⟩
      · exact h
      · cases he

theorem upsert_run (c : Contract) (k : Kernel) :
    (upsert c).run k = (if k.outage = some .upserts then
      throw (.timedOut (Outage.operation .upserts)) else write .upsert c :
        Action Contract).run k := rfl

/-- An upsert writes its contract or fails and leaves the contents. -/
theorem upsert_store (c : Contract) (k : Kernel) :
    let after := (upsert c).run k
    (∃ e, after.1 = .error e) ∧ SameContents after.2.store k.store
      ∨ ∃ written store,
        k.store.write k.supply.now .upsert c = .ok (written, store)
          ∧ Left after written store := by
  rw [upsert_run]
  split
  · exact .inl ⟨⟨_, rfl⟩, rfl, rfl⟩
  · rcases write_store .upsert c k with ⟨e, -, he, hsame⟩ | h
    · exact .inl ⟨⟨e, he⟩, hsame⟩
    · exact .inr h

theorem run_reading {α : Type} (f : Kernel → Except Error α) (k : Kernel) :
    (reading f).run k = (f k, k) := rfl

section

variable [TextLibrary]

/-- The part of a patch that is all or nothing. -/
def patchNamed (mask : Schema) (reference : String) (r : Reference)
    (operations : List PatchOperation) : Action Json := do
  let p ← reading fun k => k.patched mask reference r operations
  match p.contract with
  | none => return p.view
  | some c =>
      let _ ← upsert c
      return p.view

theorem patchFor_run (k : Kernel) (session reference : String)
    (operations : List PatchOperation) :
    (patchFor session reference operations).run k
      = match Reference.parse reference, k.mask session with
        | .error e, _ | .ok _, .error e => (.error e, k)
        | .ok r, .ok mask =>
            (transaction (patchNamed mask reference r operations)).run k := by
  rw [patchFor, Stateful.run_bind]
  cases Reference.parse reference with
  | error e => rfl
  | ok r =>
      show ((reading fun k => k.mask session) >>= fun mask =>
        transaction (patchNamed mask reference r operations)).run k = _
      rw [Stateful.run_bind, run_reading]
      cases k.mask session <;> rfl

/-- The part of a patch that is all or nothing leaves the contents, or
    writes one contract and succeeds. -/
theorem patchNamed_store (k : Kernel) (mask : Schema) (reference : String)
    (r : Reference) (operations : List PatchOperation) :
    let after := (patchNamed mask reference r operations).run k
    SameContents after.2.store k.store
      ∨ ∃ p c written store,
        k.patched mask reference r operations = .ok p ∧ p.contract = some c
          ∧ k.store.write k.supply.now .upsert c = .ok (written, store)
          ∧ Left after p.view store := by
  rw [patchNamed, Stateful.run_bind, run_reading]
  cases hp : k.patched mask reference r operations with
  | error e => exact .inl ⟨rfl, rfl⟩
  | ok p =>
      dsimp only
      cases hc : p.contract with
      | none => exact .inl ⟨rfl, rfl⟩
      | some c =>
          dsimp only
          rw [Stateful.run_bind]
          have hstore := upsert_store c k
          cases hu : (upsert c).run k with
          | mk result after =>
              rw [hu] at hstore
              rcases hstore with ⟨⟨e, rfl⟩, hsame⟩ | ⟨written, store, hwrite, rfl, hsame⟩
              · exact .inl hsame
              · exact .inr ⟨p, c, written, store, rfl, hc, hwrite, rfl, hsame⟩

/-- A patch leaves the contents of the store, or writes one contract and
    succeeds. -/
theorem patchFor_store (k : Kernel) (session reference : String)
    (operations : List PatchOperation) :
    let after := (patchFor session reference operations).run k
    SameContents after.2.store k.store
      ∨ ∃ r mask p c written store,
        Reference.parse reference = .ok r ∧ k.mask session = .ok mask
          ∧ k.patched mask reference r operations = .ok p ∧ p.contract = some c
          ∧ k.store.write k.supply.now .upsert c = .ok (written, store)
          ∧ Left after p.view store := by
  rw [patchFor_run]
  cases Reference.parse reference with
  | error e => exact .inl ⟨rfl, rfl⟩
  | ok r =>
      cases hmask : k.mask session with
      | error e => exact .inl ⟨rfl, rfl⟩
      | ok mask =>
          have hinside := patchNamed_store { k with depth := k.depth + 1 }
            mask reference r operations
          have houtside := transaction_store
            (patchNamed mask reference r operations) k
          dsimp only at hinside houtside ⊢
          rcases houtside.2 with ⟨hrows, hedges⟩ | ⟨-, hsame⟩
          · rcases hinside with ⟨hrows', hedges'⟩
              | ⟨p, c, written, store, hp, hc, hwrite, hresult, hrows', hedges'⟩
            · exact .inl ⟨hrows.trans hrows', hedges.trans hedges'⟩
            · exact .inr ⟨r, mask, p, c, written, store, rfl, rfl, hp, hc, hwrite,
                houtside.1.trans hresult, hrows.trans hrows', hedges.trans hedges'⟩
          · exact .inl hsame

/-- How a patch succeeds: it leaves the contents, or writes one contract. -/
structure Succeeds (k : Kernel) (mask : Schema) (reference : String) (r : Reference)
    (operations : List PatchOperation) (p : Patched) (after : Store) : Prop where
  patched : k.patched mask reference r operations = .ok p
  unwritten : p.contract = none → SameContents after k.store
  written : ∀ c, p.contract = some c → ∃ written store,
    k.store.write k.supply.now .upsert c = .ok (written, store)
      ∧ SameContents after store

theorem patchNamed_ok {view : Json}
    (h : ((patchNamed mask reference r operations).run k).1 = .ok view) :
    ∃ p, p.view = view ∧ k.Succeeds mask reference r operations p
      ((patchNamed mask reference r operations).run k).2.store := by
  rw [patchNamed, Stateful.run_bind, run_reading] at h ⊢
  cases hp : k.patched mask reference r operations with
  | error e => rw [hp] at h; cases h
  | ok p =>
      rw [hp] at h
      dsimp only at h ⊢
      cases hc : p.contract with
      | none =>
          rw [hc] at h
          refine ⟨p, Except.ok.inj h, hp, fun _ => ⟨rfl, rfl⟩, fun c hc' => ?_⟩
          cases hc.symm.trans hc'
      | some c =>
          rw [hc] at h
          dsimp only at h ⊢
          rw [Stateful.run_bind] at h ⊢
          have hstore := upsert_store c k
          cases hu : (upsert c).run k with
          | mk result after =>
              rw [hu] at h hstore
              rcases hstore with ⟨⟨e, rfl⟩, -⟩ | ⟨written, store, hwrite, rfl, hsame⟩
              · cases h
              refine ⟨p, Except.ok.inj h, hp, fun hnone => ?_, ?_⟩
              · cases hc.symm.trans hnone
              · rintro c' hc'
                obtain rfl := Option.some.inj (hc.symm.trans hc')
                exact ⟨written, store, hwrite, hsame⟩

theorem patchFor_ok {view : Json} (hmask : k.mask session = .ok mask)
    (href : Reference.parse reference = .ok r)
    (h : ((patchFor session reference operations).run k).1 = .ok view) :
    ∃ p, p.view = view ∧ k.Succeeds mask reference r operations p
      ((patchFor session reference operations).run k).2.store := by
  rw [patchFor_run, href, hmask] at h ⊢
  dsimp only at h ⊢
  have houtside := transaction_store (patchNamed mask reference r operations) k
  dsimp only at houtside
  rw [houtside.1] at h
  obtain ⟨p, hview, hp, hunwritten, hwritten⟩ := patchNamed_ok h
  have hsame : SameContents _ _ := houtside.2.resolve_right fun ⟨⟨e, he⟩, _⟩ => by
    rw [h] at he
    cases he
  refine ⟨p, hview, hp, fun hnone => hsame.trans (hunwritten hnone), fun c hc => ?_⟩
  obtain ⟨written, store, hwrite, hsame'⟩ := hwritten c hc
  exact ⟨written, store, hwrite, hsame.trans hsame'⟩

/-- A patch whose contract can be written writes it. -/
theorem patchFor_writes (houtage : k.outage = none)
    (href : Reference.parse reference = .ok r)
    (hmask : k.mask session = .ok mask) {p : Patched} {c written : Contract}
    {store : Store} (hp : k.patched mask reference r operations = .ok p)
    (hc : p.contract = some c)
    (hwrite : k.store.write k.supply.now .upsert c = .ok (written, store)) :
    Left ((patchFor session reference operations).run k) p.view store := by
  have hinside : Left ((patchNamed mask reference r operations).run
      { k with depth := k.depth + 1 }) p.view store := by
    have hp' : ({ k with depth := k.depth + 1 } : Kernel).patched mask reference
        r operations = .ok p := hp
    rw [patchNamed, Stateful.run_bind, run_reading, hp']
    dsimp only
    rw [hc]
    dsimp only
    rw [Stateful.run_bind, upsert_run, if_neg (by simp [houtage])]
    rcases write_store .upsert c { k with depth := k.depth + 1 } with
      ⟨e, he, -⟩ | ⟨written', store', hok, hresult, hsame⟩
    · exact absurd (hwrite.symm.trans he) nofun
    · obtain ⟨rfl, rfl⟩ := Prod.mk.inj (Except.ok.inj (hwrite.symm.trans hok))
      cases hrun : (write .upsert c).run { k with depth := k.depth + 1 } with
      | mk result after =>
          rw [hrun] at hresult hsame
          dsimp only at hresult hsame
          subst hresult
          exact ⟨rfl, hsame⟩
  rw [patchFor_run, href, hmask]
  have houtside := transaction_store (patchNamed mask reference r operations) k
  dsimp only at houtside ⊢
  refine ⟨houtside.1.trans hinside.1, ?_⟩
  rcases houtside.2 with ⟨hrows, hedges⟩ | ⟨⟨e, he⟩, -⟩
  · exact ⟨hrows.trans hinside.2.1, hedges.trans hinside.2.2⟩
  · rw [hinside.1] at he
    cases he

/-- The steps of a patch that does something to a contract that is seen. -/
theorem patched_cons {full : Contract} {view : Json}
    (hfull : k.store.find? r.slug r.version = some full)
    (hid : k.store.contract? full.id = some full)
    (hview : k.visible mask full.id = .ok (some view)) (hne : operations ≠ []) :
    k.patched mask reference r operations = (do
      let schema ← k.typeSchema (Reference.ofType full.type)
      let patchedView ← k.patchView mask reference view operations
      let image ← Patch.apply full.toJson operations
      k.checkPatched schema image
      if image.equal full.toJson then return ⟨patchedView, none⟩
      else return ⟨patchedView, some (← readPatched image)⟩) := by
  have hempty : operations.isEmpty = false := by simpa using hne
  simp [patched, hfull, hid, hview, hempty, bind, Except.bind]

/-- A patch that leaves another contract, fit for its type and in sight of
    the session. -/
theorem patched_of_steps {full c : Contract} {view patchedView : Json}
    {schema : Schema} (hfull : k.store.find? r.slug r.version = some full)
    (hid : k.store.contract? full.id = some full)
    (hview : k.visible mask full.id = .ok (some view))
    (hne : operations.isEmpty = false)
    (hschema : k.typeSchema (Reference.ofType full.type) = .ok schema)
    (hpatched : k.patchView mask reference view operations = .ok patchedView)
    (happly : Patch.apply full.toJson operations = .ok c.toJson)
    (hcheck : k.checkPatched schema c.toJson = .ok ())
    (hchanged : c.toJson.equal full.toJson = false)
    (hread : readPatched c.toJson = .ok c) :
    k.patched mask reference r operations = .ok ⟨patchedView, some c⟩ := by
  simp [patched, hfull, hid, hview, hne, hschema, hpatched, happly, hcheck,
    hchanged, hread, bind, Except.bind, pure, Except.pure]

end

/-- The schema of a type is that of the active contract it names. -/
theorem typeSchema_eq {type : String} {c : Contract}
    (href : Reference.parse type = .ok r)
    (hfound : k.store.find? r.slug r.version = some c) (hactive : c.active = true) :
    k.typeSchema type = schemaOf c := by
  simp [typeSchema, href, hfound, hactive, Option.filter]

/-! ## Who may patch -/

/-- A patch of a contract by a session with a mask gets to work: the mask
    shows the contract, or it forbids ids and shows any contract. -/
def MayPatch [TextLibrary] (k : Kernel) (mask : Schema) (c : Contract) : Prop :=
  k.shows mask c = true
    ∨ Mask.forbids mask "id" = true
      ∧ ∃ d ∈ k.store.contracts, k.shows mask d = true

/-- The empty patch shows what is seen in the place of the contract. -/
theorem patched_nil [TextLibrary] {full : Contract} {view : Json}
    (hfull : k.store.find? r.slug r.version = some full)
    (hid : k.store.contract? full.id = some full)
    (hview : k.visible mask full.id = .ok (some view)) :
    k.patched mask reference r [] = .ok ⟨view, none⟩ := by
  simp [patched, hfull, hid, hview, bind, Except.bind, pure, Except.pure]

/-- A patch changes the contract that a reference names only if the mask of
    the session shows it, or if the mask forbids ids and shows any contract.
    The patch that does nothing tells the same: it succeeds just then. -/
theorem patch_authority [TextLibrary] (hk : Reachable k) (hmask : k.mask session = .ok mask)
    (href : Reference.parse reference = .ok r) {full : Contract}
    (hfull : k.store.find? r.slug r.version = some full) :
    (∀ operations : List PatchOperation,
      ((patchFor session reference operations).run k).2.store.contract? full.id
        ≠ some full → k.MayPatch mask full)
      ∧ ((∃ view, ((patchFor session reference []).run k).1 = .ok view)
        ↔ k.MayPatch mask full) := by
  have hsound := hk.sound
  have hmem := Store.mem_of_find? hfull
  have hid := hsound.store.contract?_eq_some.mpr ⟨hmem, rfl⟩
  have gate (operations : List PatchOperation) {p : Patched}
      (hp : k.patched mask reference r operations = .ok p) :
      k.MayPatch mask full := by
    obtain ⟨found, view, hworks⟩ := hsound.works_of_patched hp
    obtain rfl := Option.some.inj (hfull.symm.trans hworks.named)
    exact (hsound.visible_iff hmem).mp ⟨view, hworks.visible⟩
  refine ⟨fun operations hchanged => ?_, ?_, fun hmay => ?_⟩
  · rcases patchFor_store k session reference operations with
      hsame | ⟨r', mask', p, c, _, _, href', hmask', hp, -⟩
    · refine absurd ?_ hchanged
      rw [Store.contract?, hsame.1]
      exact hid
    · obtain rfl := Except.ok.inj (href.symm.trans href')
      obtain rfl := Except.ok.inj (hmask.symm.trans hmask')
      exact gate operations hp
  · rintro ⟨view, hresult⟩
    rw [patchFor_run, href, hmask] at hresult
    dsimp only at hresult
    rw [(transaction_store _ k).1, patchNamed, Stateful.run_bind,
      run_reading] at hresult
    cases hp : ({ k with depth := k.depth + 1 } : Kernel).patched mask reference
        r [] with
    | error e => rw [hp] at hresult; cases hresult
    | ok p => exact gate [] hp
  · obtain ⟨view, hview⟩ := (hsound.visible_iff hmem).mpr hmay
    have hp : ({ k with depth := k.depth + 1 } : Kernel).patched mask reference
        r [] = .ok ⟨view, none⟩ := patched_nil hfull hid hview
    refine ⟨view, ?_⟩
    rw [patchFor_run, href, hmask]
    dsimp only
    rw [(transaction_store _ k).1, patchNamed, Stateful.run_bind, run_reading, hp]
    rfl

/-- Whoever sees no ids gets to work on a card that is out of sight. -/
theorem patch_authority_anonymous :
    ∃ view, ((patchFor "reader" "card@1.0.0" []).run (guarded anonymous)).1
      = .ok view := by
  have hreader : reader anonymous ∈ (guarded anonymous).store.contracts := by
    simp [contracts_guarded reread_anonymous]
  exact (patch_authority (guarded_reachable _) mask_anonymous
    (r := ⟨"card", .exact Version.initial⟩) rfl
    (find?_card reread_anonymous)).2.mpr
      (.inr ⟨by decide, _, hreader, shows_reader⟩)

/-! ## A patch of the card -/

theorem checkPatched_true [TextLibrary] (k : Kernel) (patched : Json) :
    k.checkPatched (.bool true) patched = .ok () := rfl

/-- Operations that make another contract of the card, as new as the card, which is
    kept as `e`. -/
structure Alters (operations : List PatchOperation) (c e : Contract) : Prop where
  nonempty : operations.isEmpty = false
  apply : Patch.apply card.toJson operations = .ok c.toJson
  changed : c.toJson.equal card.toJson = false
  identified : c.checkIdentity = .ok ()
  unlinked : c.links = [] ∧ c.linkedAt = []
  times : c.createdAt = ⟨0, 0⟩ ∧ c.updatedAt = none
  canonical : Store.canonical c = .ok e

/-- What the operations make of the card is read back. -/
theorem Alters.readback {c e : Contract} (h : Alters operations c e) :
    readPatched c.toJson = .ok c := by
  have hread : Contract.ofJson? c.toJson = some c := by
    refine Contract.ofJson?_toJson h.unlinked.1 h.unlinked.2 ?_ ?_
    · rw [h.times.1]
      exact parse?_start
    · rw [h.times.2]
      exact nofun
  rw [readPatched, hread]
  dsimp only
  rw [h.identified]
  rfl

section

variable {read : Json} (hread : (reader read).reread = some (reader read))

include hread

theorem typeSchema_card [TextLibrary] :
    (guarded read).typeSchema (Reference.ofType card.type)
      = .ok (.bool true) :=
  typeSchema_eq (r := ⟨"card", .exact Version.initial⟩) rfl (find?_card hread) rfl

section

variable [TextLibrary]
variable {view patchedView : Json} {c e found : Contract}
    (hmask : (guarded read).mask "reader" = .ok mask)
    (hview : (guarded read).visible mask "card" = .ok (some view))
    (hviews : (guarded read).Views mask operations view patchedView)
    (halters : Alters operations c e)

include hview hviews halters

/-- Operations that the session may apply make the altered card. -/
theorem patched_card :
    (guarded read).patched mask "card@1.0.0" ⟨"card", .exact Version.initial⟩ operations
      = .ok ⟨patchedView, some c⟩ := by
  have hfull := find?_card hread
  have hid := (guarded_reachable read).sound.store.contract?_eq_some.mpr
    ⟨Store.mem_of_find? hfull, rfl⟩
  exact patched_of_steps hfull hid hview halters.nonempty (typeSchema_card hread)
    (patchView_of_views hviews) halters.apply (checkPatched_true _ _) halters.changed
    halters.readback

variable (hold : (guarded read).store.existing? e = some found)
    (hlink : Link.ofContract? (Store.replacing ⟨2, 0⟩ e found) = none)

include hmask hold hlink

/-- A patch of the card whose steps succeed puts the patched card in the place
    of the contract that exists already, and makes no links. -/
theorem patch_left :
    ∃ store, Left ((patchFor "reader" "card@1.0.0" operations).run (guarded read))
        patchedView store
      ∧ store.rows = ((guarded read).store.put (Store.replacing ⟨2, 0⟩ e found)).rows
      ∧ store.edges = [] := by
  have hp := patched_card hread hview hviews halters
  obtain ⟨store, hwrite, hrows, hedges⟩ :=
    Store.write_over halters.canonical hold hlink
  have hleft := patchFor_writes (guarded_reachable read).sound.outage (by rfl) hmask hp
    rfl (by rw [supply_guarded]; exact hwrite)
  exact ⟨store, hleft, hrows, hedges.trans (edges_guarded read)⟩

theorem patch_puts :
    let patched := (patchFor "reader" "card@1.0.0" operations).run (guarded read)
    patched.1 = .ok patchedView ∧ patched.2.store.rows
      = ((guarded read).store.put (Store.replacing ⟨2, 0⟩ e found)).rows := by
  obtain ⟨store, hleft, hrows, -⟩ :=
    patch_left hread hmask hview hviews halters hold hlink
  exact ⟨hleft.1, hleft.2.1.trans hrows⟩

/-- A patch of the card whose steps succeed leaves the patched card under the
    id of the contract that exists already. -/
theorem patch_over {after : Contract}
    (hafter : (Store.replacing ⟨2, 0⟩ e found).reread = some after) :
    let patched := (patchFor "reader" "card@1.0.0" operations).run (guarded read)
    patched.1 = .ok patchedView
      ∧ patched.2.store.contract? found.id = some after := by
  obtain ⟨hresult, hrows⟩ := patch_puts hread hmask hview hviews halters hold hlink
  have hput := Store.contract?_put (guarded read).store
    (Store.replacing ⟨2, 0⟩ e found)
  rw [show (Store.replacing ⟨2, 0⟩ e found).id = found.id from rfl, hafter] at hput
  refine ⟨hresult, ?_⟩
  rw [← hput, Store.contract?, Store.contract?, hrows]

end

/-- The card is what exists already of a contract with its slug and version. -/
theorem existing?_card [TextLibrary] {e : Contract} (hslug : e.slug = "card")
    (hversion : e.version = "1.0.0") :
    (guarded read).store.existing? e = some card := by
  rw [(guarded_reachable read).sound.store.existing?_eq_some, hslug, hversion]
  exact ⟨Store.mem_of_find? (find?_card hread), .inl ⟨rfl, rfl⟩⟩

end

/-- What the reader who sees no ids sees in the place of the card: what it
    sees of itself. -/
theorem visible_card_anonymous :
    (guarded anonymous).visible anonymousMask "card"
      = .ok (some (.object
        [("markers", .array []), ("name", .null),
         ("slug", .string "role-reader")])) := by
  have hsound := (guarded_reachable anonymous).sound
  rw [hsound.visible_eq compiles_anonymousMask,
    found_of_unique (c := reader anonymous)]
  · rfl
  · simp [contracts_guarded reread_anonymous]
  · intro d hd
    rw [hsound.finds_id compiles_anonymousMask]
    rw [contracts_guarded reread_anonymous] at hd
    have hforbids : Mask.forbids anonymousMask "id" = true := by decide
    rcases List.mem_cons.mp hd with rfl | hd
    · have hne : card ≠ reader anonymous := fun h =>
        absurd (congrArg Contract.id h) (by decide)
      simp [not_shows_card, hne]
    · obtain rfl := List.mem_singleton.mp hd
      simp [shows_reader, hforbids]

/-- The card with another name. -/
def renamed : Contract := { card with name := some "Renamed" }

/-- The patch that gives the card another name. -/
def rename : List PatchOperation := [.replace "/name" (.string "Renamed")]

theorem alters_rename : Alters rename renamed renamed :=
  ⟨rfl, by decide +kernel, by decide +kernel, by decide +kernel, ⟨rfl, rfl⟩, ⟨rfl, rfl⟩,
    by decide +kernel⟩

theorem views_rename :
    (guarded anonymous).Views anonymousMask rename
      (.object [("markers", .array []), ("name", .null),
        ("slug", .string "role-reader")])
      (.object [("markers", .array []), ("name", .string "Renamed"),
        ("slug", .string "role-reader")]) :=
  (guarded_reachable anonymous).sound.views_of_meets compiles_anonymousMask (by decide +kernel)
    (by decide +kernel) (by decide +kernel)

/-- Whoever sees no ids renames a card that is out of sight. -/
theorem renames_unseen_card :
    Reachable (guarded anonymous)
      ∧ (guarded anonymous).mask "reader" = .ok anonymousMask
      ∧ (guarded anonymous).store.find? "card" (.exact Version.initial) = some card
      ∧ (guarded anonymous).shows anonymousMask card = false
      ∧ ((patchFor "reader" "card@1.0.0" rename).run
          (guarded anonymous)).2.store.contract? "card" ≠ some card := by
  have hafter : (Store.replacing ⟨2, 0⟩ renamed card).reread
      = some (Store.replacing ⟨2, 0⟩ renamed card) :=
    Contract.reread_eq rfl rfl rfl parse?_start rfl rfl parse?_next
  have hpatched := patch_over reread_anonymous mask_anonymous visible_card_anonymous
    views_rename alters_rename (existing?_card reread_anonymous rfl rfl)
    (by decide +kernel) hafter
  refine ⟨guarded_reachable _, mask_anonymous, find?_card reread_anonymous,
    not_shows_card, fun h => ?_⟩
  have hcard := hpatched.2.symm.trans h
  exact absurd (congrArg Contract.name (Option.some.inj hcard)) (by decide)

end Kernel

end LinkedContracts
