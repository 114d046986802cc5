import LinkedContracts.Proofs.Kernel.Hidden

/-! # What a patch leaves alone

    A patch writes the contract it made of another one, by its slug and
    version.  As long as no other contract has these, only the contract that
    was patched is written, and the contracts at the ends of a link get its
    stamp.  A patch of the slug or the version can lead to another contract,
    which is then written over. -/

namespace LinkedContracts

namespace Kernel

variable {k : Kernel} {session reference : String} {mask : Schema}
  {r : Reference} {operations : List PatchOperation} {full d e : Contract}

section

variable [TextLibrary]

/-- A patched contract has the id of the contract it was made of. -/
theorem Works.id_eq {view : Json} {p : Patched} {c : Contract}
    (h : k.Works mask r operations full view p) (hc : p.contract = some c) :
    c.id = full.id := by
  obtain ⟨patched, happly, hread⟩ := h.writes c hc
  obtain ⟨fields, rfl⟩ := Patch.object_steps happly
  have hid : Dict.find? fields "id" = some (.string full.id) := by
    rw [← Json.part?_singleton, Patch.part?_steps happly fun op _ =>
      PatchOperation.not_touches_immutable (by decide), part?_toJson (by decide)]
    rfl
  have hread := (Contract.readFrom_of_ofFields (ofJson?_of_readPatched hread)).id
  rw [hid] at hread
  exact (Option.some.inj hread).symm

/-- Whether a patch makes a contract with the slug and version of a stored
    one; what it makes, as it is kept. -/
def Takes (k : Kernel) (mask : Schema) (reference : String) (r : Reference)
    (operations : List PatchOperation) (d e : Contract) : Prop :=
  ∃ p c, k.patched mask reference r operations = .ok p ∧ p.contract = some c
    ∧ Store.canonical c = .ok e ∧ d.slug = e.slug ∧ d.version = e.version

/-- A patched contract is written over the one it was made of, or over the one
    whose slug and version it has. -/
theorem Works.written_over (hk : k.Sound) {view : Json} {p : Patched}
    {c written : Contract} {now : Instant} {store : Store}
    (h : k.Works mask r operations full view p) (hc : p.contract = some c)
    (hwrite : k.store.write now .upsert c = .ok (written, store)) :
    ∃ e found, Store.canonical c = .ok e ∧ found ∈ k.store.contracts
      ∧ written = Store.replacing now e found
      ∧ (found = full ∨ found.slug = e.slug ∧ found.version = e.version) := by
  have hfull := Store.mem_of_find? h.named
  obtain ⟨e, he, ⟨found, hfound, -, rfl, -⟩ | ⟨hnone, -, -⟩⟩ := Store.write_ok hwrite
  · obtain ⟨hmem, hnamed | ⟨-, hid⟩⟩ := hk.store.existing?_eq_some.mp hfound
    · exact ⟨e, found, he, hmem, rfl, .inr hnamed⟩
    · rw [(Store.kept_of_canonical he).2.1, h.id_eq hc] at hid
      exact ⟨e, found, he, hmem, rfl, .inl (hk.store.eq_of_id hmem hfull hid)⟩
  · -- there is a contract to write over: the one that was patched
    have hid := hk.store.contract?_eq_some.mpr ⟨hfull, rfl⟩
    rw [Store.existing?, (Store.kept_of_canonical he).2.1, h.id_eq hc, hid] at hnone
    split at hnone <;> cases hnone

/-- A patch leaves the rows of the other contracts, but for the stamps of a
    link and for a contract whose slug and version it takes, and it adds
    none. -/
theorem frame_of_patch (operations : List PatchOperation) (hk : Reachable k)
    (hmask : k.mask session = .ok mask)
    (href : Reference.parse reference = .ok r)
    (hfull : k.store.find? r.slug r.version = some full) :
    let after := ((patchFor session reference operations).run k).2.store
    (∀ id, Dict.find? k.store.rows id = none → Dict.find? after.rows id = none)
      ∧ ∀ d ∈ k.store.contracts, d ≠ full →
        ∃ row, Dict.find? after.rows d.id = some row
          ∧ (Dict.find? k.store.rows d.id = some row
            ∨ Relinks k mask reference r operations d.id
              ∧ (∃ linkedAt, row = .ofContract { d with linkedAt := linkedAt })
            ∨ ∃ e, k.Takes mask reference r operations d e
              ∧ row = .ofContract (Store.replacing k.supply.now e d)) := by
  have hsound := hk.sound
  rcases patchFor_store k session reference operations with
    hsame | ⟨r', mask', p, c, written, store, href', hmask', hp, hc, hwrite, hleft⟩
  · refine ⟨fun id hid => hsame.1 ▸ hid, fun d hd _ => ?_⟩
    obtain ⟨row, hrow, -⟩ := hsound.store.row_of_mem hd
    exact ⟨row, hsame.1 ▸ hrow, .inl hrow⟩
  obtain rfl := Except.ok.inj (href.symm.trans href')
  obtain rfl := Except.ok.inj (hmask.symm.trans hmask')
  obtain ⟨full', view, hworks⟩ := hsound.works_of_patched hp
  obtain rfl := Option.some.inj (hfull.symm.trans hworks.named)
  obtain ⟨e, found, he, hfound, rfl, hover⟩ := hworks.written_over hsound hc hwrite
  constructor
  · intro id hid
    rw [hleft.2.1]
    cases hsound.store.fate_of_write hwrite id with
    | kept _ hrow => exact hrow.trans hid
    | written hwritten =>
        obtain ⟨row, hrow, -⟩ := hsound.store.row_of_mem hfound
        exact absurd (hwritten ▸ hrow) (by simp [hid])
    | stamped d linkedAt hd hdid =>
        obtain ⟨row, hrow, -⟩ := hsound.store.row_of_mem hd
        exact absurd (hdid ▸ hrow) (by simp [hid])
    | lost row _ hrow => exact absurd hrow (by simp [hid])
  · intro d hd hne
    obtain ⟨row, hrow⟩ := hsound.store.row_of_write hwrite hd
    refine ⟨row, hleft.2.1 ▸ hrow.found, ?_⟩
    rcases hrow.cases with hkept | ⟨hid, rfl⟩ | ⟨hlinks, hstamped⟩
    · exact .inl hkept
    · obtain rfl := hsound.store.eq_of_id hfound hd hid
      rcases hover with rfl | ⟨hslug, hversion⟩
      · exact absurd rfl hne
      · exact .inr (.inr ⟨e, ⟨p, c, hp, hc, he, hslug, hversion⟩, rfl⟩)
    · exact .inr (.inl ⟨⟨p, c, _, store, hp, hc, hwrite, hlinks⟩, hstamped⟩)

end

/-! ## Patches of the card by a discreet reader -/

theorem not_links_of_card {c : Contract} (h : c.type = "card@1.0.0") (id : String) :
    ¬Store.Links c id := by
  rintro ⟨l, hl, -⟩
  rw [ofContract?_of_card h] at hl
  cases hl

/-- What the reader sees of the card by another name. -/
theorem views_rename_discreet :
    (guarded discreet).Views discreetMask rename
      (Mask.redact card.toRow discreetMask) (Mask.redact renamed.toRow discreetMask) :=
  (guarded_reachable discreet).sound.views_of_meets compiles_discreetMask (by decide +kernel)
    (by decide +kernel) (by decide +kernel)

theorem patched_rename :
    (guarded discreet).patched discreetMask "card@1.0.0"
        ⟨"card", .exact Version.initial⟩ rename
      = .ok ⟨Mask.redact renamed.toRow discreetMask, some renamed⟩ :=
  patched_card reread_discreet visible_card_discreet views_rename_discreet alters_rename

/-- The reader stays as it is when the card is renamed. -/
theorem frame_of_patch_rename :
    Dict.find? ((patchFor "reader" "card@1.0.0" rename).run
        (guarded discreet)).2.store.rows "reader"
      = some (.ofContract (reader discreet)) := by
  have hreader := reader_mem_guarded reread_discreet
  have hne : reader discreet ≠ card := fun h =>
    absurd (congrArg Contract.id h) (by decide)
  have href : Reference.parse "card@1.0.0" = .ok ⟨"card", .exact Version.initial⟩ :=
    rfl
  obtain ⟨row, hrow, hcases⟩ := (frame_of_patch rename (guarded_reachable discreet)
    mask_discreet href (find?_card reread_discreet)).2 _ hreader hne
  rcases hcases with hkept | ⟨⟨p, c, written, store, hp, hc, hwrite, hlinks⟩, -⟩
    | ⟨e, ⟨p, c, hp, hc, he, hslug, -⟩, -⟩
  · rw [rows_guarded] at hkept
    exact hrow.trans hkept.symm
  · -- what is written is the card, which is no link
    obtain rfl := Except.ok.inj (patched_rename.symm.trans hp)
    obtain rfl := Option.some.inj hc
    have htype : written.type = "card@1.0.0" := Store.type_written hwrite
    exact absurd hlinks (not_links_of_card htype _)
  · -- and it has the slug of the card
    obtain rfl := Except.ok.inj (patched_rename.symm.trans hp)
    obtain rfl := Option.some.inj hc
    obtain rfl : renamed = e := Except.ok.inj he
    exact absurd hslug (by decide)

/-- The card under the slug of the reader. -/
def impostor : Contract := { card with slug := "role-reader" }

/-- The patch that gives the card the slug of the reader. -/
def impersonate : List PatchOperation := [.replace "/slug" (.string "role-reader")]

theorem views_impersonate :
    (guarded discreet).Views discreetMask impersonate
      (Mask.redact card.toRow discreetMask) (Mask.redact impostor.toRow discreetMask) :=
  (guarded_reachable discreet).sound.views_of_meets compiles_discreetMask (by decide +kernel)
    (by decide +kernel) (by decide +kernel)

theorem alters_impersonate : Alters impersonate impostor impostor :=
  ⟨rfl, by decide +kernel, by decide +kernel, by decide +kernel, ⟨rfl, rfl⟩, ⟨rfl, rfl⟩,
    by decide +kernel⟩

/-- A patch of the slug of the card writes over the reader. -/
theorem patch_overwrites_reader :
    Reachable (guarded discreet)
      ∧ (guarded discreet).mask "reader" = .ok discreetMask
      ∧ (guarded discreet).store.find? "card" (.exact Version.initial) = some card
      ∧ (guarded discreet).store.contract? "reader" = some (reader discreet)
      ∧ ((patchFor "reader" "card@1.0.0" impersonate).run (guarded discreet)).1
        = .ok (Mask.redact impostor.toRow discreetMask)
      ∧ ∃ after, ((patchFor "reader" "card@1.0.0" impersonate).run
          (guarded discreet)).2.store.contract? "reader" = some after
        ∧ after.data ≠ (reader discreet).data := by
  have hold : (guarded discreet).store.existing? impostor = some (reader discreet) :=
    (guarded_reachable discreet).sound.store.existing?_eq_some.mpr
      ⟨reader_mem_guarded reread_discreet, .inl ⟨rfl, rfl⟩⟩
  have hafter : (Store.replacing ⟨2, 0⟩ impostor (reader discreet)).reread
      = some (Store.replacing ⟨2, 0⟩ impostor (reader discreet)) :=
    Contract.reread_eq rfl rfl rfl parse?_start rfl rfl parse?_next
  obtain ⟨hresult, hleft⟩ := patch_over reread_discreet mask_discreet
    visible_card_discreet views_impersonate alters_impersonate hold (by decide +kernel)
    hafter
  refine ⟨guarded_reachable _, mask_discreet, find?_card reread_discreet,
    contract?_guarded reread_discreet, hresult, _, hleft, ?_⟩
  intro h
  have hsecret := congrArg (fun data => (Json.field? data "secret").isSome) h
  exact absurd hsecret (by decide)

end Kernel

end LinkedContracts
