import LinkedContracts.Proofs.Kernel.Visible

/-! # A store behind one role

    The smallest store that someone can read: a contract that is a session,
    the actor of it and the role of the actor, all in one, and a card that is
    its own type.  What the session may read is up to the role, so that each
    way a mask can be is the mask of such a store. -/

namespace LinkedContracts

namespace Store

variable {s : Store} {c : Contract}

theorem linked_of_no_edges (h : s.edges = []) (id name : String) :
    s.linked id name = [] := by
  simp [linked, linkedRows, h]

/-- A contract in its first version is in the form in which it is kept. -/
theorem canonical_first (hid : c.id.isEmpty = false) (hslug : c.slug.isEmpty = false)
    (hversion : c.version = "1.0.0") (hlinks : c.links = []) : canonical c = .ok c := by
  have hparse : Version.parse? "1.0.0" = some Version.initial := by decide
  have htext : Version.initial.text = "1.0.0" := by decide
  have hsame : ({ c with version := "1.0.0", links := [] } : Contract) = c := by
    rw [← hversion, ← hlinks]
  simp [canonical, Contract.checkIdentity, Contract.parsedVersion, Version.parse, hid,
    hslug, hversion, hparse, htext, hsame, bind, Except.bind, pure, Except.pure]

/-- Writing a new contract that is no link puts it. -/
theorem write_new (hc : canonical c = .ok c) (hnew : s.existing? c = none)
    (hlink : Link.ofContract? c = none) (now : Instant) (mode : WriteMode) :
    s.write now mode c = .ok (c, { s.put c with
      pending := s.pending
        ++ [⟨c.id, .insert, none, some ((s.put c).image c)⟩] }) := by
  rw [write_fresh mode hc hnew]
  simp only [writeOver, hlink]
  rfl

/-- Writing over a contract puts the written one in its place, if it is no
    link. -/
theorem write_over {e found : Contract} {now : Instant} (hc : canonical c = .ok e)
    (hfound : s.existing? e = some found)
    (hlink : Link.ofContract? (replacing now e found) = none) :
    ∃ t : Store, s.write now .upsert c = .ok (replacing now e found, t)
      ∧ t.rows = (s.put (replacing now e found)).rows ∧ t.edges = s.edges := by
  refine ⟨_, write_existing hc hfound now, ?_⟩
  simp only [writeOver, hlink]
  exact ⟨rfl, rfl⟩

/-- What was put is found under its id, as it is read back. -/
theorem contract?_put (s : Store) (c : Contract) :
    (s.put c).contract? c.id = c.reread := by
  rw [contract?, put, Dict.find?_insert_self, Option.bind_some,
    StoredRow.contents_ofContract]

end Store

namespace Kernel

section

variable {k : Kernel} {α : Type}

/-- A transaction inside another one does what its body does. -/
theorem transaction_inner (x : Action α) (h : 0 < k.depth) :
    let inside := x.run { k with depth := k.depth + 1 }
    (transaction x).run k = (inside.1, { inside.2 with depth := k.depth }) :=
  if_pos h

/-- What comes of a transaction by itself. -/
theorem transaction_outer (x : Action α) (h : k.depth = 0) :
    let inside := x.run { k with depth := k.depth + 1 }
    let after := { inside.2 with depth := k.depth }
    (transaction x).run k = match inside.1 with
      | .ok a => (.ok a, after.announce)
      | .error e => (.error e, { after with store := { k.store with pending := [] } }) :=
  if_neg (by omega)

/-- A transaction ends at the depth at which it began. -/
theorem depth_transaction (x : Action α) (k : Kernel) :
    ((transaction x).run k).2.depth = k.depth := by
  by_cases h : 0 < k.depth
  · rw [transaction_inner x h]
  · rw [transaction_outer x (Nat.eq_zero_of_not_pos h)]
    split <;> rfl

theorem depth_write (mode : WriteMode) (c : Contract) (k : Kernel) :
    ((write mode c).run k).2.depth = k.depth :=
  depth_transaction _ k

end

/-- A write by itself, not part of another transaction. -/
theorem write_run {k : Kernel} {mode : WriteMode} {c d : Contract} {t : Store}
    (hdepth : k.depth = 0) (h : k.store.write k.supply.now mode c = .ok (d, t)) :
    (write mode c).run k = (.ok d, { k with
      supply := k.supply.next
      store := { t with pending := [] }
      announced := k.announced ++ t.pending }) := by
  simp only [write, transaction, ExceptT.run, hdepth]
  rw [h]
  rfl

theorem write_new {k : Kernel} {c : Contract} (hdepth : k.depth = 0)
    (hc : Store.canonical c = .ok c) (hnew : k.store.existing? c = none)
    (hlink : Link.ofContract? c = none) (mode : WriteMode) :
    (write mode c).run k = (.ok c, { k with
      supply := k.supply.next
      store := { k.store.put c with pending := [] }
      announced := k.announced ++ (k.store.pending
        ++ [⟨c.id, .insert, none, some ((k.store.put c).image c)⟩]) }) :=
  write_run hdepth (Store.write_new hc hnew hlink _ mode)

/-! ## The contracts -/

/-- A session that is its own actor, and a role of its own that lets it read
    what a document says. -/
def reader (read : Json) : Contract where
  id := "reader"
  slug := "role-reader"
  type := "session@1.0.0"
  version := "1.0.0"
  name := none
  active := true
  tags := []
  markers := []
  requires := []
  capabilities := []
  links := []
  linkedAt := []
  createdAt := ⟨0, 0⟩
  updatedAt := none
  data := .object
    [("actor", .string "reader"), ("read", read),
     ("roles", .array [.string "reader"])]

section

variable (read : Json)

@[simp] theorem id_reader : (reader read).id = "reader" := rfl

@[simp] theorem slug_reader : (reader read).slug = "role-reader" := rfl

@[simp] theorem version_reader : (reader read).version = "1.0.0" := rfl

@[simp] theorem active_reader : (reader read).active = true := rfl

@[simp] theorem field?_read : (reader read).data.field? "read" = some read := rfl

end

/-- A card that is its own type, with a secret. -/
def card : Contract where
  id := "card"
  slug := "card"
  type := "card@1.0.0"
  version := "1.0.0"
  name := some "Card"
  active := true
  tags := []
  markers := []
  requires := []
  capabilities := []
  links := []
  linkedAt := []
  createdAt := ⟨0, 0⟩
  updatedAt := none
  data := .object [("secret", .string "kept")]

theorem parse?_start : Instant.parse? (⟨0, 0⟩ : Instant).text = some ⟨0, 0⟩ := by
  decide +kernel

/-- The time of what is written next is read back. -/
theorem parse?_next (t : Instant) (h : some (⟨2, 0⟩ : Instant) = some t) :
    Instant.parse? t.text = some t := by
  cases h
  decide +kernel

theorem reread_reader {read : Json}
    (hread : Json.retold (Json.maxDepth - 2) read = some read) :
    (reader read).reread = some (reader read) := by
  refine Contract.reread_eq rfl rfl ?_ parse?_start rfl rfl nofun
  have hsorted : Dict.Sorted
      [("actor", .string "reader"), ("read", read), ("roles", .array [.string "reader"])] :=
    show List.Pairwise (· < ·) ["actor", "read", "roles"] by decide
  refine Json.retold_object_eq hsorted ?_
  simpa [Json.maxDepth, Json.retold, Json.retoldItems] using hread

theorem reread_card : card.reread = some card :=
  Contract.reread_eq rfl rfl rfl parse?_start rfl rfl nofun

theorem canonical_reader (read : Json) :
    Store.canonical (reader read) = .ok (reader read) :=
  Store.canonical_first rfl rfl rfl rfl

theorem ofContract?_reader (read : Json) :
    Link.ofContract? (reader read) = none :=
  if_neg (show ¬Link.isLinkType "session@1.0.0" = true by decide)

theorem canonical_card : Store.canonical card = .ok card := rfl

/-- What has the type of the card is no link. -/
theorem ofContract?_of_card {c : Contract} (h : c.type = "card@1.0.0") :
    Link.ofContract? c = none :=
  if_neg (by rw [h]; decide)

/-! ## The reader -/

/-- The actor of a reader that belongs to no organisation. -/
theorem actor_reader {k : Kernel} {read : Json}
    (hreader : k.store.contract? "reader" = some (reader read))
    (hlinked : k.linked "reader" membership = .ok []) :
    k.actor "reader" = .ok ⟨reader read,
      ["role-reader", "reader"], ["role-reader"], none⟩ := by
  have htype : typeIs (reader read).type "session" = true :=
    show typeIs "session@1.0.0" "session" = true by decide
  have hexpired (now : Instant) : expired now (reader read).data = false := by
    simp [expired, reader, Json.stringField?, Json.field?, Dict.find?]
  have hactor : (reader read).data.stringField? "actor" = some "reader" := by
    simp [reader, Json.stringField?, Json.field?, Dict.find?, Json.asString?]
  have hscope : scopeOf (reader read) = .ok none := by
    simp [scopeOf, reader, Json.field?, Dict.find?]
  have hroles : rolesOf (reader read) = ["role-reader", "reader"] := by
    simp [rolesOf, reader, Json.field?, Dict.find?, Json.asArray?, Json.asString?,
      addNew]
  simp [Kernel.actor, hreader, htype, hexpired, hactor, hlinked, hscope, hroles,
    markersOf, bind, Except.bind, pure, Except.pure]

/-- The mask of a reader is what its role says, if that is its only role. -/
theorem mask_reader {k : Kernel} {read : Json} {schema : Schema}
    (hactor : k.actor "reader" = .ok ⟨reader read,
      ["role-reader", "reader"], ["role-reader"], none⟩)
    (hown : k.store.versions "role-reader" = [(Version.initial, reader read)])
    (hnone : k.store.versions "role-role-reader" = [])
    (hschema : Schema.ofJson read = .ok schema) :
    k.mask "reader"
      = .ok (.conj [.disj [schema], Mask.ofMarkers ["role-reader"]]) := by
  have hreader : k.readable "reader" = some read := by
    simp [readable, Store.latest?, hown, Option.filter]
  have hother : k.readable "role-reader" = none := by
    simp [readable, Store.latest?, hnone]
  simp [Kernel.mask, hactor, maskOf, hreader, hother, hschema, bind, Except.bind,
    pure, Except.pure]

/-- The mask of a reader whose store has besides it only contracts with the slug
    of the card, and no links. -/
theorem mask_of_rows (cards : Dict StoredRow) {k : Kernel} {read : Json}
    {schema : Schema} (hread : (reader read).reread = some (reader read))
    (hrows : k.store.rows = cards ++ [("reader", .ofContract (reader read))])
    (hcards : ∀ p ∈ cards, p.1 ≠ "reader" ∧ p.2.written.slug = "card")
    (hedges : k.store.edges = []) (hschema : Schema.ofJson read = .ok schema) :
    k.mask "reader"
      = .ok (.conj [.disj [schema], Mask.ofMarkers ["role-reader"]]) := by
  have hversion : Version.parse? "1.0.0" = some Version.initial := by decide
  have hfind : Dict.find? k.store.rows "reader" = some (.ofContract (reader read)) := by
    rw [hrows]
    clear hrows
    induction cards with
    | nil => rfl
    | cons p rest ih =>
        have hne := (hcards p List.mem_cons_self).1
        rw [List.cons_append, Dict.find?_cons p.1 p.2, if_neg hne]
        exact ih fun p hp => hcards p (List.mem_cons_of_mem _ hp)
  have hother {slug : String} (hslug : slug ≠ "card") :
      k.store.versions slug = Store.versions
        { rows := [("reader", .ofContract (reader read))] } slug := by
    rw [Store.versions, hrows, List.filterMap_append, List.filterMap_eq_nil_iff.mpr]
    · rfl
    · intro p hp
      simp [(hcards p hp).2, Ne.symm hslug]
  have hcontract : k.store.contract? "reader" = some (reader read) := by
    simp [Store.contract?, hfind, hread]
  have hlinked : k.linked "reader" membership = .ok [] := by
    rw [Kernel.linked, Store.linked_of_no_edges hedges]
    simp
  refine mask_reader (actor_reader hcontract hlinked) ?_ ?_ hschema
  · rw [hother (by decide)]
    simp [Store.versions, hread, hversion]
  · rw [hother (by decide)]
    simp [Store.versions]

/-! ## The store -/

/-- A kernel with an empty store. -/
def empty : Kernel where
  settings := {}
  supply := ⟨fun n => toString n, fun n => ⟨n, 0⟩, 0⟩

/-- The kernel after the reader and the card were written. -/
def guarded (read : Json) : Kernel :=
  ((do let _ ← write .insert (reader read); write .insert card : Action Contract).run
    empty).2

theorem guarded_reachable [TextLibrary] (read : Json) : Reachable (guarded read) :=
  have hempty : create {} empty.supply = .ok empty := rfl
  .ran (.bind (.write _ _) fun _ => .write _ _) (.created hempty)

theorem rows_guarded (read : Json) :
    (guarded read).store.rows
      = [("card", .ofContract card), ("reader", .ofContract (reader read))] := by
  rw [guarded, Stateful.run_bind,
    write_new rfl (canonical_reader read) rfl (ofContract?_reader read)]
  show ((write .insert card).run _).2.store.rows = _
  rw [write_new rfl canonical_card rfl rfl]
  show ((Store.put {} (reader read)).put card).rows = _
  have hlt : "card" < "reader" := by decide
  simp only [Store.put, List.filter_nil]
  simp [Dict.insert, reader, card, StoredRow.ofContract, hlt]

theorem supply_guarded (read : Json) : (guarded read).supply.now = ⟨2, 0⟩ := by
  rw [guarded, Stateful.run_bind,
    write_new rfl (canonical_reader read) rfl (ofContract?_reader read)]
  show ((write .insert card).run _).2.supply.now = _
  rw [write_new rfl canonical_card rfl rfl]
  rfl

theorem edges_guarded (read : Json) : (guarded read).store.edges = [] := by
  rw [guarded, Stateful.run_bind,
    write_new rfl (canonical_reader read) rfl (ofContract?_reader read)]
  show ((write .insert card).run _).2.store.edges = _
  rw [write_new rfl canonical_card rfl rfl]
  rfl

theorem depth_guarded (read : Json) : (guarded read).depth = 0 := by
  rw [guarded, Stateful.run_bind,
    write_new rfl (canonical_reader read) rfl (ofContract?_reader read)]
  exact depth_write .insert card _

section

variable {read : Json} (hread : (reader read).reread = some (reader read))

include hread

theorem contracts_guarded :
    (guarded read).store.contracts = [card, reader read] := by
  simp [Store.contracts, rows_guarded, reread_card, hread]

theorem card_mem_guarded : card ∈ (guarded read).store.contracts := by
  simp [contracts_guarded hread]

theorem reader_mem_guarded : reader read ∈ (guarded read).store.contracts := by
  simp [contracts_guarded hread]

/-- What holds of the card and of the reader holds of all that is stored. -/
theorem forall_mem_guarded {P : Contract → Prop} (hcard : P card)
    (hreader : P (reader read)) : ∀ d ∈ (guarded read).store.contracts, P d := by
  rw [contracts_guarded hread]
  simpa using ⟨hcard, hreader⟩

theorem find?_card [TextLibrary] : (guarded read).store.find? "card" (.exact Version.initial)
    = some card := by
  refine (guarded_reachable read).sound.store.versioned?_eq_some.mpr
    ⟨?_, rfl, by decide⟩
  simp [contracts_guarded hread]

/-- Who may ask for ids and is shown the card sees it. -/
theorem visible_card [TextLibrary] {mask : Schema} (hasked : Mask.forbids mask "id" = false)
    (hshows : (guarded read).shows mask card = true) :
    (guarded read).visible mask "card" = .ok (some (Mask.redact card.toRow mask)) := by
  have hvisible := (guarded_reachable read).sound.visible_of_mem
    (compiles_of_shows hshows) (fun _ _ _ => hasked) (card_mem_guarded hread)
  rwa [hshows, if_pos rfl] at hvisible

theorem contract?_guarded :
    (guarded read).store.contract? "reader" = some (reader read) := by
  simp [Store.contract?, rows_guarded, Dict.find?, hread]

theorem mask_guarded {schema : Schema} (hschema : Schema.ofJson read = .ok schema) :
    (guarded read).mask "reader"
      = .ok (.conj [.disj [schema], Mask.ofMarkers ["role-reader"]]) := by
  refine mask_of_rows [("card", .ofContract card)] hread (rows_guarded read)
    ?_ (edges_guarded read) hschema
  simp [card]

end

/-! ## Readers of names only -/

/-- A role that may read the name of its own contract and nothing else, its
    id neither. -/
def anonymous : Json :=
  .object
    [("additionalProperties", .bool false),
     ("properties", .object
       [("markers", .bool true),
        ("name", .bool true),
        ("slug", .object [("const", .string "role-reader")])])]

/-- The schema of the role. -/
def anonymousSchema : Schema :=
  .node
    { properties := some
        [("markers", .bool true),
         ("name", .bool true),
         ("slug", .node { const := some (.string "role-reader") })]
      additionalProperties := some (.bool false) }

/-- The mask of the reader. -/
def anonymousMask : Schema :=
  .conj [.disj [anonymousSchema], Mask.ofMarkers ["role-reader"]]

theorem reread_anonymous :
    (reader anonymous).reread = some (reader anonymous) :=
  reread_reader rfl

theorem mask_anonymous :
    (guarded anonymous).mask "reader" = .ok anonymousMask :=
  mask_guarded reread_anonymous rfl

theorem compiles_anonymousMask : anonymousMask.Compiles :=
  Validator.ofSchema_ok.mp ⟨_, rfl⟩

theorem shows_reader : (guarded anonymous).shows anonymousMask (reader anonymous)
    = true := by
  rw [(guarded_reachable anonymous).sound.shows_eq compiles_anonymousMask]
  rfl

theorem not_shows_card :
    (guarded anonymous).shows anonymousMask card = false := by
  rw [(guarded_reachable anonymous).sound.shows_eq compiles_anonymousMask]
  rfl

end Kernel

end LinkedContracts
