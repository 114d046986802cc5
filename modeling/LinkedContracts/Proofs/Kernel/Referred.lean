import LinkedContracts.Proofs.Kernel.Lookup
import LinkedContracts.Proofs.Kernel.Patched

/-! # The contract a reference names

    A reference to a version names the stored contract that has it, and a
    reference to the latest version the stored contract with the greatest
    one.  A look-up asks for what the session sees; the contract to patch is
    chosen from all that is stored, and then has to be seen.

    The two agree about versions.  They agree about the latest one where the
    session sees the latest stored version, or no version at all. -/

namespace LinkedContracts

namespace Store

open Kernel

variable {s : Store} {c : Contract} {slug : String}

/-- A stored contract with a slug and the greatest version there is of it. -/
structure Newest (s : Store) (slug : String) (c : Contract) : Prop where
  stored : c ∈ s.contracts
  named : c.slug = slug
  latest : ∀ d ∈ s.contracts, d.slug = slug → NoLater d c

/-! ## The greatest version -/

theorem isLE_later_left (a b : Version × Contract) :
    (Version.cmp a.1 (later a b).1).isLE = true := by
  rw [later]
  split
  · exact Std.ReflCmp.isLE_rfl
  · next h => cases hcmp : Version.cmp a.1 b.1 <;> simp_all

theorem isLE_later_right (a b : Version × Contract) :
    (Version.cmp b.1 (later a b).1).isLE = true := by
  rw [later]
  split
  · next h =>
      have hswap : Version.cmp b.1 a.1 = (Version.cmp a.1 b.1).swap :=
        Std.OrientedCmp.eq_swap
      rw [hswap, eq_of_beq h]
      rfl
  · exact Std.ReflCmp.isLE_rfl

/-- The latest of several versions is no earlier than any of them. -/
theorem isLE_foldl_later (first : Version × Contract)
    (rest : List (Version × Contract)) :
    ∀ p ∈ first :: rest,
      (Version.cmp p.1 (rest.foldl later first).1).isLE = true := by
  induction rest generalizing first with
  | nil =>
      intro p hp
      obtain rfl := List.mem_singleton.mp hp
      exact Std.ReflCmp.isLE_rfl
  | cons next rest ih =>
      intro p hp
      -- the first two are no later than the later of them, and that no later
      -- than the last one left
      have hlater := ih (later first next) _ List.mem_cons_self
      rcases List.mem_cons.mp hp with rfl | hp
      · exact Std.TransCmp.isLE_trans (isLE_later_left p next) hlater
      rcases List.mem_cons.mp hp with rfl | hp
      · exact Std.TransCmp.isLE_trans (isLE_later_right first p) hlater
      · exact ih (later first next) p (List.mem_cons_of_mem _ hp)

/-- The versions of a slug are those of the stored contracts with it. -/
theorem mem_versions {v : Version} :
    (v, c) ∈ s.versions slug ↔
      c ∈ s.contracts ∧ c.slug = slug ∧ Version.parse? c.version = some v := by
  constructor
  · intro h
    refine ⟨mem_contracts_of_versions h, ?_⟩
    obtain ⟨⟨id, row⟩, -, hc⟩ := List.mem_filterMap.mp h
    obtain ⟨hslug, hc⟩ := Option.ite_none_right_eq_some.mp hc
    obtain ⟨d, hd, hc⟩ := Option.bind_eq_some_iff.mp hc
    obtain ⟨w, hw, heq⟩ := Option.map_eq_some_iff.mp hc
    obtain ⟨rfl, rfl⟩ := Prod.mk.inj heq
    exact ⟨(StoredRow.sameIdentity hd).slug.trans hslug, hw⟩
  · rintro ⟨hc, hslug, hv⟩
    obtain ⟨⟨id, row⟩, hrow, hcontents⟩ := mem_contracts.mp hc
    have hcontents : row.contents = some c := hcontents
    have hwritten : row.written.slug = slug :=
      (StoredRow.sameIdentity hcontents).slug.symm.trans hslug
    refine List.mem_filterMap.mpr ⟨_, hrow, ?_⟩
    simp [hwritten, hcontents, hv]

/-- Contracts neither of which is later are the same contract. -/
theorem Newest.unique (h : s.Sound) {d : Contract} (hc : s.Newest slug c)
    (hd : s.Newest slug d) : c = d := by
  have hversion := version_eq_of_noLater (h.kept_of_mem hc.stored)
    (h.kept_of_mem hd.stored) (hd.latest c hc.stored hc.named)
    (hc.latest d hd.stored hd.named)
  exact h.eq_of_version hc.stored hd.stored (hc.named.trans hd.named.symm) hversion

/-- The latest contract with a slug is the newest one. -/
theorem Sound.newest_of_latest? (h : s.Sound) (hc : s.latest? slug = some c) :
    s.Newest slug c := by
  rw [latest?] at hc
  split at hc
  · cases hc
  next first rest hversions =>
    obtain rfl := Option.some.inj hc
    have hmem := foldl_later_mem first rest
    have hgreatest := isLE_foldl_later first rest
    rw [← hversions] at hmem hgreatest
    obtain ⟨hstored, hnamed, hversion⟩ := mem_versions.mp hmem
    refine ⟨hstored, hnamed, fun d hd hdslug => ?_⟩
    obtain ⟨w, hw, htext⟩ := (h.kept_of_mem hd).version
    have hdversion : Version.parse? d.version = some w := by
      rw [htext, Version.parse?_text hw]
    exact ⟨w, _, hdversion, hversion,
      hgreatest (w, d) (mem_versions.mpr ⟨hd, hdslug, hdversion⟩)⟩

/-- There is a latest contract with the slug of any stored one. -/
theorem Sound.exists_latest? (h : s.Sound) (hc : c ∈ s.contracts) :
    ∃ newest, s.latest? c.slug = some newest := by
  obtain ⟨v, hv, htext⟩ := (h.kept_of_mem hc).version
  have hmem : (v, c) ∈ s.versions c.slug :=
    mem_versions.mpr ⟨hc, rfl, by rw [htext, Version.parse?_text hv]⟩
  rw [latest?]
  split
  next hnone =>
    rw [hnone] at hmem
    cases hmem
  · exact ⟨_, rfl⟩

theorem Sound.find?_latest (h : s.Sound) :
    s.find? slug .latest = some c ↔ s.Newest slug c := by
  constructor
  · exact h.newest_of_latest?
  · intro hc
    obtain ⟨newest, hnewest⟩ := h.exists_latest? hc.stored
    rw [hc.named] at hnewest
    rw [find?, hnewest, hc.unique h (h.newest_of_latest? hnewest)]

/-- A version that was read is that of at most one stored contract with a
    slug. -/
theorem Sound.find?_exact (h : s.Sound) {v : Version} (hv : v.Spelled) :
    s.find? slug (.exact v) = some c ↔
      c ∈ s.contracts ∧ c.slug = slug ∧ Version.parse? c.version = some v := by
  rw [find?, h.versioned?_eq_some]
  constructor
  · rintro ⟨hc, hslug, hversion⟩
    exact ⟨hc, hslug, (h.kept_of_mem hc).version_eq.mpr ⟨hversion, hv⟩⟩
  · rintro ⟨hc, hslug, hversion⟩
    exact ⟨hc, hslug, ((h.kept_of_mem hc).version_eq.mp hversion).1⟩

end Store

namespace Kernel

variable {k : Kernel} {session reference : String} {mask : Schema} {r : Reference}

/-! ## Look-ups and empty patches -/

/-- A look-up and an empty patch agree on what a reference names: the patch
    returns what was looked up, and says that there is no such contract where
    nothing was found. -/
structure Agrees (reference : String) (got : Except Error (Option Json))
    (patched : Except Error Json) : Prop where
  returned : ∀ c, got = .ok (some c) → patched = .ok c
  missing : got = .ok none → patched = .error (.noElement reference)

/-- What is said about a contract that a session sees, or does not see. -/
def seen (mask : Schema) (reference : String) : Option Contract → Except Error Json
  | some c => .ok (Mask.redact c.toRow mask)
  | none => .error (.noElement reference)

/-- Whether a mask lets a session ask for ids, and for what a reference
    names. -/
structure Asks (mask : Schema) (r : Reference) : Prop where
  id : Mask.forbids mask "id" = false
  slug : Mask.forbids mask "slug" = false
  version : ∀ v, r.version = .exact v → Mask.forbids mask "version" = false

/-- The empty patch returns the contract that a reference names, if the mask
    shows it. -/
theorem Sound.run_patch_nil [TextLibrary] (hk : k.Sound) (hmask : k.mask session = .ok mask)
    (hcompiles : mask.Compiles) (href : Reference.parse reference = .ok r)
    (hasked : ∀ d ∈ k.store.contracts, k.shows mask d = true →
      Mask.forbids mask "id" = false) :
    ((patchFor session reference []).run k).1
      = seen mask reference
        ((k.store.find? r.slug r.version).filter (k.shows mask)) := by
  rw [patchFor_run, href, hmask]
  dsimp only
  rw [(transaction_store _ k).1, patchNamed, Stateful.run_bind, run_reading]
  suffices hpatched : ({ k with depth := k.depth + 1 } : Kernel).patched mask
      reference r [] = (seen mask reference
        ((k.store.find? r.slug r.version).filter (k.shows mask))).map (⟨·, none⟩) by
    rw [hpatched]
    cases (k.store.find? r.slug r.version).filter (k.shows mask) <;> rfl
  show k.patched mask reference r [] = _
  cases hfull : k.store.find? r.slug r.version with
  | none => simp [patched, hfull, seen, Except.map]
  | some full =>
      have hmem := Store.mem_of_find? hfull
      have hid := hk.store.contract?_eq_some.mpr ⟨hmem, rfl⟩
      have hvisible := hk.visible_of_mem hcompiles hasked hmem
      cases hshows : k.shows mask full with
      | true =>
          rw [hshows, if_pos rfl] at hvisible
          rw [patched_nil hfull hid hvisible, Option.filter_some_pos hshows]
          rfl
      | false =>
          have hnone : (some full).filter (k.shows mask) = none := by
            simp [Option.filter, hshows]
          rw [hshows] at hvisible
          rw [hnone]
          simp [patched, hfull, hid, hvisible, seen, Except.map, bind, Except.bind]

theorem agrees_of_seen {found : Option Contract} {got : Except Error (Option Json)}
    {patched : Except Error Json}
    (hgot : got = .ok (found.map fun c => Mask.redact c.toRow mask))
    (hpatched : patched = seen mask reference found) :
    Agrees reference got patched := by
  subst hgot hpatched
  cases found with
  | none => exact ⟨nofun, fun _ => rfl⟩
  | some c =>
      refine ⟨fun view hview => ?_, nofun⟩
      rw [← Option.some.inj (Except.ok.inj hview)]
      rfl

section

variable [TextLibrary]

/-- A look-up of the latest version returns what it should, or nothing, where
    ids and slugs may be asked for. -/
theorem Sound.returned_of_asks (hk : k.Sound) (hmask : k.mask session = .ok mask)
    (hcompiles : mask.Compiles) {slug : String}
    (href : Reference.parse reference = .ok ⟨slug, .latest⟩)
    (hasks : ∀ d ∈ k.store.contracts, k.shows mask d = true →
      Mask.forbids mask "slug" = false) :
    k.Returned mask
      (fun c => c.slug = slug ∧ ∀ d ∈ k.store.contracts,
        k.shows mask d = true → d.slug = slug → NoLater d c)
      (k.getBySlug session reference) := by
  rw [hk.getBySlug_latest hmask hcompiles href]
  refine hk.returned_latest fun c hc => ?_
  rw [hk.finds_slug hcompiles]
  refine and_congr_right fun hshows => ?_
  simp [hasks c hc hshows]

/-- A look-up that succeeds was behind a mask that compiles. -/
theorem compiles_of_getBySlug {found : Option Json}
    (hmask : k.mask session = .ok mask)
    (h : k.getBySlug session reference = .ok found) : mask.Compiles := by
  rw [getBySlug] at h
  obtain ⟨⟨slug, version⟩, -, h⟩ := except_bind_ok h
  obtain ⟨mask', hmask', h⟩ := except_bind_ok h
  obtain rfl := Except.ok.inj (hmask.symm.trans hmask')
  cases version with
  | exact v =>
      obtain ⟨results, hresults, -⟩ := except_bind_ok h
      exact compiles_of_results hresults
  | latest =>
      obtain ⟨results, hresults, -⟩ := except_bind_ok h
      exact compiles_of_results hresults

/-- What is looked up by version is the contract that a patch is of, if the
    mask shows it. -/
theorem Sound.getBySlug_of_exact (hk : k.Sound) (hmask : k.mask session = .ok mask)
    (hcompiles : mask.Compiles) (href : Reference.parse reference = .ok r)
    {v : Version} (hv : r.version = .exact v)
    (hasks : ∀ c ∈ k.store.contracts, k.shows mask c = true → Asks mask r) :
    k.getBySlug session reference
      = .ok (((k.store.find? r.slug r.version).filter (k.shows mask)).map
        fun c => Mask.redact c.toRow mask) := by
  have hshown : (∀ c ∈ k.store.contracts, k.shows mask c = false)
      ∨ k.TellsApart mask := by
    by_cases hsome : ∃ c ∈ k.store.contracts, k.shows mask c = true
    · obtain ⟨c, hc, hshows⟩ := hsome
      have hasks := hasks c hc hshows
      exact .inr ⟨hasks.id, hasks.slug, .inl (hasks.version v hv)⟩
    · exact .inl (by simpa using hsome)
  obtain ⟨slug, version⟩ := r
  obtain rfl : version = .exact v := hv
  obtain ⟨found, hfound, hgot⟩ :=
    (hk.looksUp hmask hcompiles hshown).exact reference slug v href
  have hspelled := (Reference.parse_ok href).2 v rfl
  suffices hsame : found = (k.store.find? slug (.exact v)).filter (k.shows mask) by
    rw [hgot, hsame]
  ext c
  rw [hfound, Option.filter_eq_some_iff, hk.store.find?_exact hspelled]
  constructor
  · rintro ⟨hc, hshows, hwanted⟩
    exact ⟨⟨hc, hwanted⟩, hshows⟩
  · rintro ⟨⟨hc, hwanted⟩, hshows⟩
    exact ⟨hc, hshows, hwanted⟩

/-- A reference to the latest version: the latest one that is seen is looked
    up, and there is one if any is seen. -/
theorem Sound.agrees_latest_iff (hk : k.Sound) (hmask : k.mask session = .ok mask)
    (hcompiles : mask.Compiles) {slug : String}
    (href : Reference.parse reference = .ok ⟨slug, .latest⟩)
    (hasks : ∀ c ∈ k.store.contracts, k.shows mask c = true →
      Mask.forbids mask "slug" = false) :
    Agrees reference (k.getBySlug session reference)
        (seen mask reference ((k.store.find? slug .latest).filter (k.shows mask)))
      ↔ ∀ newest, k.store.Newest slug newest →
        (∃ c ∈ k.store.contracts, c.slug = slug ∧ k.shows mask c = true) →
        k.shows mask newest = true := by
  obtain ⟨found, hfound, hgot⟩ := hk.returned_of_asks hmask hcompiles href hasks
  constructor
  · rintro hagrees newest hnewest ⟨c, hc, hslug, hshows⟩
    have hfind := hk.store.find?_latest.mpr hnewest
    refine Decidable.byContradiction fun hhidden => ?_
    have hnothing : (k.store.find? slug .latest).filter (k.shows mask) = none := by
      simp [hfind, Option.filter, hhidden]
    rw [hnothing] at hagrees
    -- what is seen with the slug is found, but not for a patch
    have hsome : (k.found mask [("slug", slug)] Query.latestFirst).isSome = true :=
      isSome_found.mpr ⟨c, hc, (hk.finds_slug hcompiles).mpr ⟨hshows, .inr hslug⟩⟩
    obtain ⟨view, hview⟩ := Option.isSome_iff_exists.mp hsome
    rw [hk.getBySlug_latest hmask hcompiles href, hview] at hagrees
    exact absurd (hagrees.returned view rfl) nofun
  · intro hseen
    refine agrees_of_seen hgot (congrArg _ ?_)
    ext c
    rw [hfound, Option.filter_eq_some_iff, hk.store.find?_latest]
    constructor
    · rintro ⟨hnewest, hshows⟩
      exact ⟨hnewest.stored, hshows, hnewest.named, fun d hd _ hdslug =>
        hnewest.latest d hd hdslug⟩
    · rintro ⟨hc, hshows, hslug, hgreatest⟩
      obtain ⟨newest, hlatest⟩ := hk.store.exists_latest? hc
      rw [hslug] at hlatest
      have hnewest := hk.store.newest_of_latest? hlatest
      have hshown := hseen newest hnewest ⟨c, hc, hslug, hshows⟩
      have hversion := version_eq_of_noLater (hk.store.kept_of_mem hc)
        (hk.store.kept_of_mem hnewest.stored) (hnewest.latest c hc hslug)
        (hgreatest newest hnewest.stored hshown hnewest.named)
      obtain rfl := hk.store.eq_of_version hc hnewest.stored
        (hslug.trans hnewest.named.symm) hversion
      exact ⟨hnewest, hshows⟩

/-- A look-up and an empty patch agree on every reference to a version.  On a
    reference to the latest version they agree just where the session sees the
    latest stored version or none at all: the patch is one of the latest stored
    version, and says that there is none if the session does not see it. -/
theorem agrees_of_reference (hk : Reachable k) (hmask : k.mask session = .ok mask)
    (href : Reference.parse reference = .ok r)
    (hasks : ∀ c ∈ k.store.contracts, k.shows mask c = true → Asks mask r) :
    let got := k.getBySlug session reference
    let patched := ((patchFor session reference []).run k).1
    (∀ v, r.version = .exact v → Agrees reference got patched)
      ∧ (r.version = .latest → (Agrees reference got patched ↔
          ∀ newest, k.store.Newest r.slug newest →
            (∃ c ∈ k.store.contracts, c.slug = r.slug ∧ k.shows mask c = true) →
            k.shows mask newest = true))
      ∧ ((∃ v, Validator.ofSchema mask = .ok v) → patched
          = seen mask reference
            ((k.store.find? r.slug r.version).filter (k.shows mask))) := by
  intro got patched
  have hsound := hk.sound
  have hpatched (hcompiles : mask.Compiles) := hsound.run_patch_nil hmask hcompiles
    href fun c hc hshows => (hasks c hc hshows).id
  by_cases hcompiles : mask.Compiles
  · refine ⟨fun v hv => ?_, fun hlatest => ?_, fun _ => hpatched hcompiles⟩
    · exact agrees_of_seen (hsound.getBySlug_of_exact hmask hcompiles href hv hasks)
        (hpatched hcompiles)
    · obtain ⟨slug, version⟩ := r
      obtain rfl : version = .latest := hlatest
      show Agrees reference got patched ↔ _
      rw [show patched = _ from hpatched hcompiles]
      exact hsound.agrees_latest_iff hmask hcompiles href fun c hc hshows =>
        (hasks c hc hshows).slug
  · -- the look-up fails, and nothing is shown
    have hfails : Agrees reference got patched :=
      ⟨fun c hc => absurd (compiles_of_getBySlug hmask hc) hcompiles,
        fun hc => absurd (compiles_of_getBySlug hmask hc) hcompiles⟩
    refine ⟨fun _ _ => hfails, fun _ => ⟨fun _ newest _ hsome => ?_, fun _ => hfails⟩,
      fun hv => absurd (Validator.ofSchema_ok.mp hv) hcompiles⟩
    obtain ⟨c, -, -, hshows⟩ := hsome
    exact absurd (compiles_of_shows hshows) hcompiles

end

/-! ## A reader of first versions -/

/-- A role that may read what is of the first version. -/
def early : Json :=
  .object
    [("properties", .object
      [("version", .object [("const", .string "1.0.0")])])]

/-- The schema of the role. -/
def earlySchema : Schema :=
  .node
    { properties := some [("version", .node { const := some (.string "1.0.0") })] }

/-- The mask of the reader. -/
def earlyMask : Schema := .conj [.disj [earlySchema], Mask.ofMarkers ["role-reader"]]

theorem reread_early : (reader early).reread = some (reader early) :=
  reread_reader rfl

theorem compiles_earlyMask : earlyMask.Compiles :=
  Validator.ofSchema_ok.mp ⟨_, rfl⟩

/-- The next version of the card. -/
def nextCard : Contract := { card with id := "card-2", version := "2.0.0" }

theorem reread_nextCard : nextCard.reread = some nextCard :=
  Contract.reread_eq rfl rfl rfl parse?_start rfl rfl nofun

/-- The kernel after a next version of the card was written. -/
def staged : Kernel := ((write .insert nextCard).run (guarded early)).2

theorem staged_reachable : Reachable staged :=
  .ran (.write _ _) (guarded_reachable early)

theorem store_staged : staged.store
    = ⟨[("card", .ofContract card), ("card-2", .ofContract nextCard),
        ("reader", .ofContract (reader early))], [], []⟩ := by
  have hnew : (guarded early).store.existing? nextCard = none := by
    rw [Store.existing?, Store.versioned?, Store.contract?, rows_guarded]
    rfl
  have hput : (guarded early).store.put nextCard
      = ⟨[("card", .ofContract card), ("card-2", .ofContract nextCard),
          ("reader", .ofContract (reader early))], [], (guarded early).store.pending⟩ := by
    rw [Store.put, rows_guarded, edges_guarded]
    rfl
  rw [staged, write_new (depth_guarded early) rfl hnew rfl, hput]

theorem contracts_staged : staged.store.contracts = [card, nextCard, reader early] := by
  simp [Store.contracts, store_staged, reread_card, reread_nextCard, reread_early]

theorem mask_staged : staged.mask "reader" = .ok earlyMask := by
  refine mask_of_rows [("card", .ofContract card), ("card-2", .ofContract nextCard)]
    reread_early ?_ ?_ ?_ rfl
  · rw [store_staged]
    rfl
  · simp [card, nextCard]
  · rw [store_staged]

theorem shows_staged {c : Contract} : staged.shows earlyMask c
    = earlyMask.meets staged.store.rowsLinked .contract c.toRow :=
  staged_reachable.sound.shows_eq compiles_earlyMask c

theorem asks_early (r : Reference) : Asks earlyMask r :=
  ⟨by decide, by decide, fun _ _ => by decide⟩

theorem shows_card_staged : staged.shows earlyMask card = true := by
  rw [shows_staged]
  rfl

theorem not_shows_nextCard : staged.shows earlyMask nextCard = false := by
  rw [shows_staged]
  rfl

/-- What holds of both cards and of the reader holds of all that is stored. -/
theorem forall_mem_staged {P : Contract → Prop} (hcard : P card) (hnext : P nextCard)
    (hreader : P (reader early)) : ∀ d ∈ staged.store.contracts, P d := by
  rw [contracts_staged]
  simpa using ⟨hcard, hnext, hreader⟩

/-- The card is looked up by its version, and an empty patch of it returns the
    same. -/
theorem agrees_of_reference_card :
    Agrees "card@1.0.0" (staged.getBySlug "reader" "card@1.0.0")
        ((patchFor "reader" "card@1.0.0" []).run staged).1
      ∧ ((patchFor "reader" "card@1.0.0" []).run staged).1
        = .ok (Mask.redact card.toRow earlyMask) := by
  have href : Reference.parse "card@1.0.0" = .ok ⟨"card", .exact Version.initial⟩ :=
    rfl
  obtain ⟨hexact, -, hpatched⟩ := agrees_of_reference staged_reachable mask_staged
    href fun _ _ _ => asks_early _
  have hfind : staged.store.find? "card" (.exact Version.initial) = some card := by
    rw [staged_reachable.sound.store.find?_exact Version.initial_spelled,
      contracts_staged]
    exact ⟨List.mem_cons_self, rfl, by decide⟩
  refine ⟨hexact _ rfl, ?_⟩
  rw [hpatched ⟨_, rfl⟩, hfind, Option.filter_some_pos shows_card_staged, seen]

/-- A reader who does not see the latest version of the card looks up the one
    before, and cannot patch it by the same reference. -/
theorem patches_no_earlier_version :
    Reachable staged
      ∧ staged.getBySlug "reader" "card@latest"
        = .ok (some (Mask.redact card.toRow earlyMask))
      ∧ ((patchFor "reader" "card@latest" []).run staged).1
        = .error (.noElement "card@latest") := by
  have hsound := staged_reachable.sound
  have href : Reference.parse "card@latest" = .ok ⟨"card", .latest⟩ := rfl
  refine ⟨staged_reachable, ?_, ?_⟩
  · obtain ⟨found, hfound, hgot⟩ := hsound.returned_of_asks mask_staged
      compiles_earlyMask href fun _ _ _ => by decide
    have hcard : found = some card := by
      rw [hfound, contracts_staged]
      refine ⟨List.mem_cons_self, shows_card_staged, rfl, ?_⟩
      rw [← contracts_staged]
      refine forall_mem_staged (fun _ _ => ?_) (fun hshows => ?_) (fun _ hslug => ?_)
      · exact ⟨.initial, .initial, by decide, by decide, by decide⟩
      · rw [not_shows_nextCard] at hshows
        cases hshows
      · exact absurd hslug (by decide)
    rw [hgot, hcard, Option.map_some]
  · have hnewest : staged.store.Newest "card" nextCard := by
      refine ⟨by simp [contracts_staged], rfl, ?_⟩
      refine forall_mem_staged (fun _ => ?_) (fun _ => ?_) (fun hslug => ?_)
      · exact ⟨.initial, ⟨2, 0, 0, "", ""⟩, by decide, by decide, by decide⟩
      · exact ⟨⟨2, 0, 0, "", ""⟩, ⟨2, 0, 0, "", ""⟩, by decide, by decide, by decide⟩
      · exact absurd hslug (by decide)
    have hnone : (some nextCard).filter (staged.shows earlyMask) = none := by
      simp [Option.filter, not_shows_nextCard]
    rw [hsound.run_patch_nil mask_staged compiles_earlyMask href fun _ _ _ => by decide,
      hsound.store.find?_latest.mpr hnewest, hnone, seen]

end Kernel

end LinkedContracts
