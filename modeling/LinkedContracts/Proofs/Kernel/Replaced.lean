import LinkedContracts.Proofs.Kernel.Prepared
import LinkedContracts.Proofs.Store.Rows

/-! # Who may replace what

    A replacement takes the place of the contract with its slug and version,
    and has to see that one.  Where there is none it takes the place of the
    contract with its id, whether it sees that one or not. -/

namespace LinkedContracts

namespace Kernel

variable {k : Kernel} {mask : Schema} {session : String} {definition : Json}
  {c d e written : Contract}

section

variable [TextLibrary]

/-- Whether a definition that a session may write is kept as a contract. -/
def Offers (k : Kernel) (mask : Schema) (definition : Json) (e : Contract) : Prop :=
  ∃ c, ((prepare mask definition).run k).1 = .ok c ∧ Store.canonical c = .ok e

/-- How what is kept takes the place of a stored contract. -/
inductive TakesPlace (k : Kernel) (mask : Schema) (d e : Contract) : Prop where
  /-- It has the slug and version of the contract, which the session has to
      see. -/
  | named (hslug : d.slug = e.slug) (hversion : d.version = e.version)
      (hmay : k.MayPatch mask d)
  /-- It has the id of the contract, and no contract has its slug and
      version. -/
  | chosen (hfree : k.store.versioned? e.slug e.version = none)
      (hid : d.id = e.id)

/-- A replacement has to see, or seem to see, the contract with its slug and
    version; it does not have to see any other. -/
theorem Sound.checkReplaced_ok (hk : k.Sound) (he : Store.canonical c = .ok e) :
    k.checkReplaced mask c = .ok () ↔ ∀ d ∈ k.store.contracts,
      d.slug = e.slug → d.version = e.version → k.MayPatch mask d := by
  obtain ⟨-, -, v, hv, rfl⟩ := Store.canonical_ok he
  have hparsed : c.parsedVersion = .ok v := by
    simp [Contract.parsedVersion, Version.parse, hv]
  simp only [checkReplaced, hparsed, bind, Except.bind, Store.find?]
  cases hfound : k.store.versioned? c.slug v.text with
  | none =>
      refine ⟨fun _ d hd hslug hversion => ?_, fun _ => rfl⟩
      rw [hk.store.versioned?_eq_some.mpr ⟨hd, hslug, hversion⟩] at hfound
      cases hfound
  | some found =>
      obtain ⟨hmem, hslug, hversion⟩ := hk.store.versioned?_eq_some.mp hfound
      have hsees : (∃ view, k.visible mask found.id = .ok (some view)) ↔
          ∀ d ∈ k.store.contracts, d.slug = c.slug → d.version = v.text →
            k.MayPatch mask d := by
        rw [hk.visible_iff hmem]
        refine ⟨fun hmay d hd hslug' hversion' => ?_, fun h => h found hmem hslug hversion⟩
        rwa [← hk.store.eq_of_version hmem hd (hslug.trans hslug'.symm)
          (hversion.trans hversion'.symm)]
      rw [← hsees]
      cases hvisible : k.visible mask found.id with
      | error e => simp [hvisible]
      | ok view => cases view <;> simp [hvisible, pure, Except.pure]

/-- A replacement that may be made is made. -/
theorem Sound.replaceFor_ok (hk : k.Sound) (hmask : k.mask session = .ok mask)
    (hc : ((prepare mask definition).run k).1 = .ok c)
    (he : Store.canonical c = .ok e) (hcheck : k.checkReplaced mask c = .ok ()) :
    ∃ written, ((replaceFor session definition).run k).1 = .ok written := by
  rw [replaceFor_run, hmask]
  dsimp only
  rw [hc]
  dsimp only
  rw [(transaction_store _ _).1, replaceNamed, Stateful.run_bind, run_reading]
  have hcheck' : ({ k with supply := k.supply.next, depth := k.depth + 1 } :
      Kernel).checkReplaced mask c = .ok () := hcheck
  rw [hcheck']
  dsimp only
  rw [upsert_run, if_neg (by simp [hk.outage])]
  rcases write_store .upsert c
      { k with supply := k.supply.next, depth := k.depth + 1 } with
    ⟨e, herror, -⟩ | ⟨written, store, -, hleft⟩
  · obtain ⟨written, store, hwrite⟩ := upsert_canonical he k.store k.supply.next.now
    cases hwrite.symm.trans herror
  · exact ⟨written, hleft.1⟩

/-- A replacement leaves the row of a stored contract as it is, but for the
    stamps of a link, unless it takes the place of the contract: as the one
    with its slug and version, which the session has to see, or as the one
    with its id, which it need not see.  It is refused only over the former. -/
theorem replace_authority (definition : Json) (hk : Reachable k)
    (hmask : k.mask session = .ok mask) :
    let after := (replaceFor session definition).run k
    (∀ d ∈ k.store.contracts, ∃ row, Dict.find? after.2.store.rows d.id = some row
      ∧ (Dict.find? k.store.rows d.id = some row
        ∨ ∃ written, after.1 = .ok written
          ∧ (Store.Links written d.id
              ∧ (∃ linkedAt, row = .ofContract { d with linkedAt := linkedAt })
            ∨ row = .ofContract written ∧ ∃ e, k.Offers mask definition e
              ∧ written = Store.replacing k.supply.next.now e d
              ∧ k.TakesPlace mask d e)))
      ∧ ∀ e, k.Offers mask definition e →
        ((∃ written, after.1 = .ok written) ↔ ∀ d ∈ k.store.contracts,
          d.slug = e.slug → d.version = e.version → k.MayPatch mask d) := by
  have hsound := hk.sound
  have hstore := replaceFor_store k session definition
  refine ⟨fun d hd => ?_, fun e he => ⟨fun hsuccess => ?_, fun hmay => ?_⟩⟩
  · rcases hstore with
      ⟨-, hsame⟩ | ⟨mask', c, written, store, hmask', hc, hcheck, hwrite, hleft⟩
    · obtain ⟨row, hrow, -⟩ := hsound.store.row_of_mem hd
      exact ⟨row, hsame.1 ▸ hrow, .inl hrow⟩
    obtain rfl := Except.ok.inj (hmask.symm.trans hmask')
    obtain ⟨row, hrow⟩ := hsound.store.row_of_write hwrite hd
    refine ⟨row, hleft.2.1 ▸ hrow.found, ?_⟩
    rcases hrow.cases with hkept | ⟨hid, rfl⟩ | ⟨hlinks, hstamped⟩
    · exact .inl hkept
    · refine .inr ⟨written, hleft.1, .inr ⟨rfl, ?_⟩⟩
      obtain ⟨e, he, ⟨found, hfound, -, rfl, -⟩ | ⟨hnone, rfl, -⟩⟩ :=
        Store.write_ok hwrite
      · obtain ⟨hmem, hexisting⟩ := hsound.store.existing?_eq_some.mp hfound
        obtain rfl := hsound.store.eq_of_id hmem hd hid
        refine ⟨e, ⟨c, hc, he⟩, rfl, ?_⟩
        rcases hexisting with ⟨hslug, hversion⟩ | ⟨hfree, hid⟩
        · exact .named hslug hversion
            ((hsound.checkReplaced_ok he).mp hcheck found hd hslug hversion)
        · exact .chosen hfree hid
      · -- a new contract has the id of none that is stored
        rw [Store.existing?, hid,
          hsound.store.contract?_eq_some.mpr ⟨hd, rfl⟩] at hnone
        split at hnone <;> cases hnone
    · exact .inr ⟨written, hleft.1, .inl ⟨hlinks, hstamped⟩⟩
  · obtain ⟨c, hc, he⟩ := he
    obtain ⟨written, hsuccess⟩ := hsuccess
    rcases hstore with
      ⟨⟨e, herror⟩, -⟩ | ⟨mask', c', written', store, hmask', hc', hcheck, -, -⟩
    · cases hsuccess.symm.trans herror
    obtain rfl := Except.ok.inj (hmask.symm.trans hmask')
    obtain rfl := Except.ok.inj (hc.symm.trans hc')
    exact (hsound.checkReplaced_ok he).mp hcheck
  · obtain ⟨c, hc, he⟩ := he
    exact hsound.replaceFor_ok hmask hc he ((hsound.checkReplaced_ok he).mpr hmay)

end

/-! ## Readers of one name -/

/-- A role that may read the contracts named "Mine". -/
def titled : Json :=
  .object [("properties", .object
    [("name", .object [("const", .string "Mine")])])]

/-- The schema of the role. -/
def titledSchema : Schema :=
  .node { properties := some [("name", .node { const := some (.string "Mine") })] }

/-- The mask of the reader. -/
def titledMask : Schema :=
  .conj [.disj [titledSchema], Mask.ofMarkers ["role-reader"]]

theorem reread_titled : (reader titled).reread = some (reader titled) :=
  reread_reader rfl

theorem mask_titled : (guarded titled).mask "reader" = .ok titledMask :=
  mask_guarded reread_titled rfl

theorem compiles_titledMask : titledMask.Compiles :=
  Validator.ofSchema_ok.mp ⟨_, rfl⟩

/-- A contract of the reader, with the type and the data of the card. -/
def mine (id : String) : Contract :=
  { card with id := id, slug := "mine", name := some "Mine" }

/-- The definition of the contract. -/
def offer (id : String) : Json :=
  .object
    [("created_at", .string "1970-01-01T00:00:00Z"),
     ("data", .object [("secret", .string "kept")]), ("id", .string id),
     ("name", .string "Mine"), ("slug", .string "mine"), ("type", .string "card")]

theorem checkPrepared_mine (id : String) :
    (guarded titled).checkPrepared titledMask (mine id) = .ok (mine id) := by
  have hschema : (guarded titled).typeSchema (mine id).type = .ok (.bool true) :=
    typeSchema_card reread_titled
  have haccepts : (guarded titled).accepts titledMask (mine id).toJson = .ok true := by
    rw [(guarded_reachable titled).sound.accepts_eq compiles_titledMask]
    rfl
  rw [checkPrepared, hschema, haccepts]
  rfl

theorem prepare_offer {id : String} {c : Contract}
    (hpartial : Contract.ofPartial ((guarded titled).supply.id
      (guarded titled).supply.used) (guarded titled).supply.now (offer id) = .ok c)
    (hnormalized : normalized c = mine id) :
    ((prepare titledMask (offer id)).run (guarded titled)).1 = .ok (mine id) :=
  prepare_ok hpartial (by rw [hnormalized, checkPrepared_mine])

theorem prepare_usurper :
    ((prepare titledMask (offer "card")).run (guarded titled)).1
      = .ok (mine "card") :=
  prepare_offer (c := { mine "card" with type := "card" }) (by decide +kernel)
    (by decide +kernel)

/-- No contract has the slug of what the reader offers. -/
theorem slug_ne_mine (id : String) {d : Contract}
    (hd : d ∈ (guarded titled).store.contracts) : d.slug ≠ (mine id).slug :=
  have hslug : ∀ d ∈ (guarded titled).store.contracts, d.slug ≠ "mine" :=
    forall_mem_guarded reread_titled (by decide) (by decide)
  hslug d hd

/-- The contract may be written, as no contract has its slug. -/
theorem replace_authority_offer :
    ∃ written, ((replaceFor "reader" (offer "card")).run (guarded titled)).1 = .ok written :=
  ((replace_authority (offer "card") (guarded_reachable titled) mask_titled).2
    (mine "card") ⟨mine "card", prepare_usurper, rfl⟩).mpr
      fun _ hd hslug => absurd hslug (slug_ne_mine _ hd)

theorem versioned?_mine [TextLibrary] (id : String) :
    (guarded titled).store.versioned? (mine id).slug (mine id).version = none := by
  cases hfound : (guarded titled).store.versioned? (mine id).slug (mine id).version with
  | none => rfl
  | some d =>
      obtain ⟨hd, hslug, -⟩ :=
        (guarded_reachable titled).sound.store.versioned?_eq_some.mp hfound
      exact absurd hslug (slug_ne_mine id hd)

theorem not_shows_card_titled : (guarded titled).shows titledMask card = false := by
  rw [(guarded_reachable titled).sound.shows_eq compiles_titledMask]
  rfl

/-- Whoever sees only what is named "Mine" replaces a card that is out of
    sight. -/
theorem replaces_unseen_card :
    Reachable (guarded titled)
      ∧ (guarded titled).mask "reader" = .ok titledMask
      ∧ Mask.forbids titledMask "id" = false
      ∧ (guarded titled).store.contract? "card" = some card
      ∧ (guarded titled).shows titledMask card = false
      ∧ (∃ written,
          ((replaceFor "reader" (offer "card")).run (guarded titled)).1 = .ok written)
      ∧ ((replaceFor "reader" (offer "card")).run
          (guarded titled)).2.store.contract? "card" ≠ some card := by
  have hsound := (guarded_reachable titled).sound
  have hcard := card_mem_guarded reread_titled
  have hcheck : (guarded titled).checkReplaced titledMask (mine "card") = .ok () :=
    (hsound.checkReplaced_ok rfl).mpr fun _ hd hslug =>
      absurd hslug (slug_ne_mine _ hd)
  have hold : (guarded titled).store.existing? (mine "card") = some card :=
    hsound.store.existing?_eq_some.mpr ⟨hcard, .inr ⟨versioned?_mine _, rfl⟩⟩
  obtain ⟨written, hresult⟩ := hsound.replaceFor_ok mask_titled prepare_usurper rfl hcheck
  refine ⟨guarded_reachable _, mask_titled, by decide,
    hsound.store.contract?_eq_some.mpr ⟨hcard, rfl⟩, not_shows_card_titled,
    ⟨written, hresult⟩, fun hkept => ?_⟩
  rcases replaceFor_store (guarded titled) "reader" (offer "card") with
    ⟨⟨e, herror⟩, -⟩ | ⟨mask, c, written, store, hmask, hc, -, hwrite, hleft⟩
  · cases hresult.symm.trans herror
  obtain rfl := Except.ok.inj (mask_titled.symm.trans hmask)
  obtain rfl := Except.ok.inj (prepare_usurper.symm.trans hc)
  obtain ⟨t, hover, hrows, -⟩ := Store.write_over (c := mine "card") rfl hold
    (ofContract?_of_card rfl)
  obtain ⟨rfl, rfl⟩ := Prod.mk.inj (Except.ok.inj (hwrite.symm.trans hover))
  -- under the id of the card is what was written, with another slug
  have hput := Store.contract?_put (guarded titled).store
    (Store.replacing (guarded titled).supply.next.now (mine "card") card)
  rw [Store.contract?, hleft.2.1, hrows] at hkept
  have same := Contract.sameIdentity_of_reread (hput.symm.trans hkept)
  exact absurd same.slug (by decide)

end Kernel

end LinkedContracts
