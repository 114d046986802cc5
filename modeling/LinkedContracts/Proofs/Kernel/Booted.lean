import LinkedContracts.Proofs.Kernel.Administered
import LinkedContracts.Proofs.Kernel.Installed
import LinkedContracts.Proofs.Kernel.Opening

/-! # Initializing again

    A store is initialized exactly if the type of types that it has accepts
    the built-in one, and its administrator is under an id of the format of
    ids.  The administrator may put a stricter type of types in the place of
    the built-in one, so that the store is not initialized any more.

    A store that was initialized is initialized again, and is left as it was
    but for the times of the last updates.

    All this is so with any library that reads the patterns of the types that the
    built-in contracts have. -/

namespace LinkedContracts

namespace Kernel

open Builtin Stateful

variable {k l : Kernel} {session : String} {uses : Nat}

section

variable [TextLibrary]

/-- What a program leads to. -/
theorem Reachable.of_run {α : Type} {x : Action α} {result : Except Error α}
    (hk : Reachable k) (hx : Program x) (h : x.run k = (result, l)) : Reachable l := by
  have hran := Reachable.ran hx hk
  rwa [h] at hran

/-- What initializing leaves, if everything is written. -/
theorem boot_run {s : Contract}
    (h : bootstrapAll.run { k with depth := k.depth + 1 } = (.ok s, l)) :
    ∃ pending announced, boot.run k = (.ok s.id,
      { l with
        depth := k.depth
        store := { l.store with pending }
        announced
        adminSession := some s.id }) := by
  obtain ⟨pending, announced, hrun⟩ := transaction_ok h
  refine ⟨pending, announced, ?_⟩
  rw [boot, run_bind_ok hrun]
  rfl

/-- Initializing fails with what it is made of. -/
theorem boot_result : (boot.run k).1
    = (bootstrapAll.run { k with depth := k.depth + 1 }).1.map Contract.id := by
  rw [← (transaction_store bootstrapAll k).1, boot, run_bind]
  cases (transaction bootstrapAll).run k with
  | mk result after => cases result <;> rfl

theorem Supplied.begun (hs : k.Supplied uses) : Supplied { k with depth := k.depth + 1 } uses :=
  ⟨hs.uuid, hs.new, hs.distinct, hs.told⟩

theorem isUuid_adminId (hs : k.Supplied (uses + 22)) : IsUuid k.adminId
    ↔ ∀ c, k.store.find? adminSlug (.exact Version.initial) = some c → IsUuid c.id := by
  rw [adminId]
  split
  · next c hc => simp [hc]
  · next hnone => simpa [hnone] using hs.uuid 10 (by omega)

variable [TextLibrary.ReadsBuiltin]

/-- Everything is written by initializing, and the session that is there is
    opened again. -/
theorem installs_boot (hk : Reachable k) (hs : k.Supplied (uses + 22))
    (htypes : k.AcceptsTypes) (hadmin : IsUuid k.adminId) :
    ∃ s l, boot.run k = (.ok s, l)
      ∧ Installs k l (all k.adminId) uses
      ∧ l.store.Holds Builtin.admin k.adminId
      ∧ l.store.Holds (Builtin.adminSession k.adminId) s
      ∧ ∀ id, k.store.Holds (Builtin.adminSession k.adminId) id → s = id := by
  obtain ⟨s, l, hrun, h, hheld, hopened, hsame⟩ := bootstrapAll_ok (Reachable.begun hk).sound
    (Nat.succ_pos _) hs.begun htypes hadmin
  obtain ⟨pending, announced, hboot⟩ := boot_run hrun
  refine ⟨s.id, _, hboot, ?_, hheld, hopened, hsame⟩
  constructor
  · exact ⟨h.sound.settings, h.sound.store.of_rows rfl, h.sound.outage⟩
  · rfl
  · exact h.supply
  · exact ⟨h.supplied.uuid, h.supplied.new, h.supplied.distinct, h.supplied.told⟩
  · exact h.edges
  · exact h.holds
  · exact h.spares
  · exact h.first
  · intro hall
    have hrefreshed := h.refreshed hall
    exact ⟨hrefreshed.ids, hrefreshed.edges, hrefreshed.contracts⟩

theorem accepted_of_boot_ok (hk : Reachable k) (hs : k.Supplied (uses + 22))
    (h : (boot.run k).1 = .ok session) : k.AcceptsTypes ∧ IsUuid k.adminId := by
  by_cases haccepted : k.AcceptsTypes ∧ IsUuid k.adminId
  · exact haccepted
  · obtain ⟨e, he⟩ := bootstrapAll_refused (Reachable.begun hk).sound (Nat.succ_pos _) hs.begun
      fun htypes hadmin => haccepted ⟨htypes, hadmin⟩
    rw [boot_result, he] at h
    cases h

/-- A store is initialized exactly if the type of types that it has, unless it
    is inactive, accepts the built-in one, and the administrator that it has is
    under an id of the format of ids. -/
theorem boot_ok_iff (hk : Reachable k) (hs : k.Supplied 22) :
    (∃ session, (boot.run k).1 = .ok session)
      ↔ k.AcceptsTypes ∧ ∀ c, k.store.find? adminSlug (.exact Version.initial) = some c →
          IsUuid c.id := by
  have hs : k.Supplied (0 + 22) := hs
  rw [← isUuid_adminId hs]
  constructor
  · rintro ⟨session, h⟩
    exact accepted_of_boot_ok hk hs h
  · rintro ⟨htypes, hadmin⟩
    obtain ⟨s, l, hrun, -⟩ := installs_boot hk hs htypes hadmin
    exact ⟨s, congrArg Prod.fst hrun⟩

end

theorem opening_acceptsTypes : opening.AcceptsTypes := nofun

theorem opening_isUuid_adminId : IsUuid opening.adminId :=
  (opening_supplied (Nat.le_refl 60)).uuid 10 (by decide)

/-- An empty store can be initialized. -/
theorem boot_ok_opening : Reachable opening ∧ opening.Supplied 22
    ∧ ∃ session, (boot.run opening).1 = .ok session := by
  have hsupplied : opening.Supplied 22 := opening_supplied (by decide)
  exact ⟨opening_reachable, hsupplied, (boot_ok_iff opening_reachable hsupplied).mpr
    ⟨opening_acceptsTypes, nofun⟩⟩

/-- A type of types that asks each type for a schema of its form. -/
def stricterType : Json :=
  Builtin.definition "type" "type@1.0.0"
    [("name", .string "Contract type"),
     ("data", .object
       [("schema", record [("data", record [] ["uiSchema"])] ["data"]),
        ("uiSchema", .object [])])]

theorem plain_stricterType : Plain stricterType :=
  plain_named (by decide) (by decide) (by cbv)

theorem typeType_accepts_stricterType : Builtin.accepts typeType stricterType = true := by
  decide +kernel

theorem stricterType_refuses : Builtin.refuses stricterType typeType = true := by
  decide +kernel

/-- A store with a type of types that refuses the built-in one is not
    initialized. -/
theorem boot_refused_of_holds [TextLibrary] [TextLibrary.ReadsBuiltin] (hk : Reachable k)
    (hs : k.Supplied (uses + 22)) {type : Json} {id : String}
    (hheld : k.store.Holds type id) (hslug : slugOf type = "type")
    (hrefuses : Builtin.refuses type typeType = true) : ∃ e, (boot.run k).1 = .error e := by
  cases hboot : (boot.run k).1 with
  | error e => exact ⟨e, rfl⟩
  | ok session =>
      obtain ⟨createdAt, updatedAt, hfound⟩ := hheld
      rw [hslug] at hfound
      obtain ⟨schema, hschema, hcheck⟩ := (accepted_of_boot_ok hk hs hboot).1 _ hfound rfl
      exact absurd hcheck (not_check_of_refuses hk.sound hrefuses _ _ hschema)

/-- After a new store was initialized its administrator has a session in
    force. -/
theorem administered_of_opening [TextLibrary] {s : String}
    (h : Installs opening k (all opening.adminId) uses)
    (hadmin : k.store.Holds Builtin.admin opening.adminId)
    (hsession : k.store.Holds (Builtin.adminSession opening.adminId) s) :
    k.Administered opening.adminId s where
  sound := h.sound
  admin := hadmin
  opened := hsession
  role := h.holds adminRole (by simp [all])
  first c hc := (h.first c hc).resolve_left nofun
  edges := h.edges

/-- The administrator of a new store may make the type of types stricter, and
    the store is not initialized again. -/
theorem boot_refused_stricter : ∃ session stored,
    (boot.run opening).1 = .ok session
      ∧ let replaced := (replaceFor session stricterType).run (boot.run opening).2
        replaced.1 = .ok stored ∧ ∃ e, (boot.run replaced.2).1 = .error e := by
  have hsupplied : opening.Supplied (22 + 2 + 22) := opening_supplied (by decide)
  obtain ⟨session, k, hboot, hinstalls, hadmin, hsession, -⟩ := installs_boot opening_reachable
    hsupplied opening_acceptsTypes opening_isUuid_adminId
  obtain ⟨typeId, htype⟩ := hinstalls.holds typeType (by simp [all, coreTypes])
  obtain ⟨stored, l, hreplace, hheld, hleft⟩ :=
    (administered_of_opening hinstalls hadmin hsession).replaceFor_held plain_stricterType
      hinstalls.supplied htype rfl typeType_accepts_stricterType htype (by decide)
  have hk : Reachable k := opening_reachable.of_run .boot hboot
  have hl : Reachable l := hk.of_run (.replace session stricterType) hreplace
  refine ⟨session, stored, congrArg Prod.fst hboot, ?_⟩
  rw [hboot]
  dsimp only
  rw [hreplace]
  exact ⟨rfl, boot_refused_of_holds hl hleft hheld rfl stricterType_refuses⟩

/-- The built-in type of types accepts itself. -/
theorem acceptsTypes_of_holds [TextLibrary] [TextLibrary.ReadsBuiltin] (hk : k.Sound)
    {id : String} (h : k.store.Holds typeType id) : k.AcceptsTypes := by
  obtain ⟨createdAt, updatedAt, hfound⟩ := h
  intro c hc _
  obtain rfl := Option.some.inj (hfound.symm.trans hc)
  exact check_of_accepts hk (typeType_accepts typeType List.mem_cons_self)
    (k.supply.id k.supply.used) k.supply.now

theorem adminId_of_holds {id : String} (h : k.store.Holds Builtin.admin id) :
    k.adminId = id := by
  obtain ⟨createdAt, updatedAt, hfound⟩ := h
  have hslug : slugOf Builtin.admin = adminSlug := by decide
  rw [hslug] at hfound
  rw [adminId, hfound]
  rfl

/-- Initializing again opens the same session and changes nothing but the
    times of the last updates. -/
theorem boot_again [TextLibrary] [TextLibrary.ReadsBuiltin] (hk : Reachable k) (hs : k.Supplied 44)
    (h : (boot.run k).1 = .ok session) :
    let first := (boot.run k).2
    (boot.run first).1 = .ok session ∧ first.store.Refreshed (boot.run first).2.store := by
  have hs : k.Supplied (0 + 22 + 22) := hs
  obtain ⟨htypes, hadmin⟩ := accepted_of_boot_ok hk hs h
  obtain ⟨s, l, hrun, hfirst, hheld, hopened, -⟩ := installs_boot hk hs htypes hadmin
  obtain rfl : s = session := by
    rw [hrun] at h
    exact Except.ok.inj h
  obtain ⟨typeId, htype⟩ := hfirst.holds typeType (by simp [all, coreTypes])
  have hl : Reachable l := hk.of_run .boot hrun
  have hid := adminId_of_holds hheld
  obtain ⟨s', m, hrun', hsecond, -, -, hsame⟩ := installs_boot hl hfirst.supplied
    (acceptsTypes_of_holds hfirst.sound htype) (hid ▸ hadmin)
  obtain rfl := hsame s (hid ▸ hopened)
  rw [hrun]
  dsimp only
  rw [hrun']
  exact ⟨rfl, hsecond.refreshed (hid ▸ hfirst.holds)⟩

/-- A new store that was initialized can be initialized again. -/
theorem boot_again_opening : ∃ session,
    let first := boot.run opening
    Reachable opening ∧ opening.Supplied 44 ∧ first.1 = .ok session
      ∧ (boot.run first.2).1 = .ok session
      ∧ first.2.store.Refreshed (boot.run first.2).2.store := by
  have hsupplied : opening.Supplied (22 + 22) := opening_supplied (by decide)
  obtain ⟨session, k, hboot, -⟩ := installs_boot opening_reachable hsupplied
    opening_acceptsTypes opening_isUuid_adminId
  have hok : (boot.run opening).1 = .ok session := congrArg Prod.fst hboot
  exact ⟨session, opening_reachable, hsupplied, hok,
    boot_again opening_reachable hsupplied hok⟩

end Kernel

end LinkedContracts
