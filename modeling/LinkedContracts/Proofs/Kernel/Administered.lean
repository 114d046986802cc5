import LinkedContracts.Proofs.Kernel.Bootstrapped
import LinkedContracts.Proofs.Kernel.Entitled

/-! # The administrator

    The role of the administrator lets it read every contract, so that its
    mask accepts whatever has no markers.  The administrator may put any
    built-in definition in the place of the one there is: only the type
    that the definition names is asked. -/

namespace LinkedContracts

namespace Kernel

open Builtin Stateful

/-- What the role of the administrator lets it read. -/
def adminRead : Schema :=
  .node
    { types := some (.single .object)
      additionalProperties := some (.bool true) }

/-- The mask of the administrator. -/
def adminMask : Schema := .conj [.disj [adminRead], Mask.ofMarkers [adminSlug]]

theorem compiles_adminMask [TextLibrary] : adminMask.Compiles :=
  compiles_of_isOk rfl

theorem forbids_adminMask (key : String) : Mask.forbids adminMask key = false := by
  by_cases hkey : key = "markers"
  · subst hkey
    decide
  · simp [adminMask, adminRead, Schema.conj, Schema.disj, Mask.ofMarkers, Mask.forbids,
      Mask.ownPart, Mask.anyForbids, Mask.allForbid, Mask.someForbids,
      Mask.everyForbids, Dict.find?, Schema.isFalse, Ne.symm hkey]

/-- What has no markers meets the mask of the administrator. -/
theorem meets_adminMask [TextLibrary] (links : Json → String → List Json) {c : Contract}
    (hmarkers : c.markers = []) : adminMask.meets links .contract c.toRow = true := by
  have hread : adminRead.meets links .contract c.toRow = true := by
    rw [adminRead, Schema.meets]
    simp [Keywords.plainMeets, Keywords.scalarMeets, TypeSet.toList, Place.hasType,
      Place.items?, Place.others?, Schema.eachMeets, Schema.someMeets,
      Schema.propertiesMeet, Schema.allMeet, Schema.anyMeets, Schema.notMeets,
      Schema.linksMeet, Contract.toRow]
  have hknown : (Mask.ofMarkers [adminSlug]).meets links .contract c.toRow = true :=
    (Mask.meets_ofMarkers links [adminSlug] c).mpr (by simp [hmarkers])
  simp [adminMask, Schema.meets_conj, Schema.meets_disj, hread, hknown]

/-- The document of a contract meets the mask of the administrator as its row
    does. -/
theorem meets_adminMask_toJson [TextLibrary] (links : Json → String → List Json) {c : Contract}
    (hmarkers : c.markers = []) : adminMask.meets links .contract c.toJson = true := by
  have hown : (Mask.ofMarkers [adminSlug]).Reads ["markers"] :=
    .node _ rfl rfl rfl rfl (by simp) nofun nofun nofun
  have hread : adminRead.Reads ["markers"] := .node _ rfl rfl rfl rfl nofun nofun nofun nofun
  have hreads : adminMask.Reads ["markers"] :=
    .conj (List.forall_mem_cons.mpr ⟨.disj (by simpa using hread), by simpa using hown⟩)
  have hagree : Schema.AgreeOn ["markers"] c.toJson c.toRow := by
    intro key hkey
    rw [List.mem_singleton.mp hkey, field?_toJson c (by decide)]
    rfl
  rw [hreads.meets_congr hagree, meets_adminMask links hmarkers]

variable {k : Kernel} {definition type : Json} {actor session id : String} {uses : Nat}

/-- What is stored has the contract of a definition under its id. -/
theorem contract?_of_holds (hk : k.Sound) (h : k.store.Holds definition id) :
    ∃ createdAt updatedAt,
      k.store.contract? id = some (contract definition id createdAt updatedAt) := by
  obtain ⟨createdAt, updatedAt, hfound⟩ := h
  exact ⟨createdAt, updatedAt,
    hk.store.contract?_eq_some.mpr ⟨(hk.find?_initial.mp hfound).1, rfl⟩⟩

/-- A session of the administrator in a store of first versions without
    links. -/
structure Administered (k : Kernel) (actor session : String) : Prop where
  sound : k.Sound
  admin : k.store.Holds Builtin.admin actor
  opened : k.store.Holds (Builtin.adminSession actor) session
  role : ∃ id, k.store.Holds adminRole id
  first : ∀ c ∈ k.store.contracts, c.version = "1.0.0"
  edges : k.store.edges = []

namespace Administered

/-- The administrator has its own role only. -/
theorem actor_eq (h : k.Administered actor session) :
    ∃ a, k.actor session = .ok ⟨a, [adminSlug], [adminSlug], none⟩ := by
  obtain ⟨since, updated, hsession⟩ := contract?_of_holds h.sound h.opened
  obtain ⟨since', updated', hadmin⟩ := contract?_of_holds h.sound h.admin
  have hlinked : k.linked actor membership = .ok [] := by
    rw [Kernel.linked, Store.linked_of_no_edges h.edges, if_neg (by simp [h.sound.outage])]
  generalize hs : contract (Builtin.adminSession actor) session since updated = s at hsession
  generalize ha : contract Builtin.admin actor since' updated' = a at hadmin
  have htype : typeIs s.type "session" = true := by
    rw [← hs]
    show typeIs "session@1.0.0" "session" = true
    decide
  have hactive : s.active = true := hs ▸ rfl
  have hdata : s.data = .object [("actor", .string actor)] := hs ▸ rfl
  have hexpired : expired k.supply.now s.data = false := by
    simp [expired, hdata, Json.stringField?, Json.field?, Dict.find?]
  have hactor : s.data.stringField? "actor" = some actor := by
    simp [hdata, Json.stringField?, Json.field?, Dict.find?, Json.asString?]
  have hscope : scopeOf s = .ok none := by
    simp [scopeOf, hdata, Json.field?, Dict.find?]
  have hid : a.id = actor := ha ▸ rfl
  have hroles : rolesOf a = [adminSlug] := ha ▸ rfl
  have hmarkers : markersOf a [] = [adminSlug] := ha ▸ rfl
  refine ⟨a, ?_⟩
  simp [Kernel.actor, hsession, htype, hactive, hexpired, hactor, hadmin, hid, hlinked, hscope,
    hroles, hmarkers, bind, Except.bind, pure, Except.pure]

/-- The session of the administrator has the mask of the administrator. -/
theorem mask_eq (h : k.Administered actor session) : k.mask session = .ok adminMask := by
  obtain ⟨a, ha⟩ := h.actor_eq
  obtain ⟨roleId, since, updated, hrole⟩ := h.role
  have hread : k.readable adminSlug
      = some (typed "object" [("additionalProperties", .bool true)]) := by
    obtain ⟨hmem, hslug, hversion⟩ := h.sound.find?_initial.mp hrole
    refine h.sound.readable_eq_some.mpr ⟨_, ⟨hmem, hslug, fun d hd _ => ?_⟩, rfl, rfl⟩
    have hparse : Version.parse? "1.0.0" = some Version.initial := by decide
    exact ⟨_, _, (h.first d hd).symm ▸ hparse, hversion.symm ▸ hparse, by decide⟩
  have hschema : Schema.ofJson (typed "object" [("additionalProperties", .bool true)])
      = .ok adminRead := rfl
  simp [Kernel.mask, ha, maskOf, hread, hschema, adminMask, bind, Except.bind, pure, Except.pure]

/-- A definition that fits its type is one that the administrator may write. -/
theorem prepare_eq [TextLibrary] [TextLibrary.ReadsBuiltin] (h : k.Administered actor session)
    (hd : Plain definition) (hs : k.Supplied (uses + 2)) {schema : Schema}
    (hschema : k.typeSchema (typeOf definition) = .ok schema)
    (hcheck : schema.check (k.draft definition).toJson k.linkSource = .ok ()) :
    ((prepare adminMask definition).run k).1 = .ok (k.draft definition) := by
  refine prepare_ok (ofPartial_draft hd hs) ?_
  have hnormalized : normalized (k.draft definition) = k.draft definition :=
    normalized_contract hd _ _
  have haccepts : k.accepts adminMask (k.draft definition).toJson = .ok true := by
    rw [h.sound.accepts_eq compiles_adminMask, meets_adminMask_toJson _ rfl]
  have hschema : k.typeSchema (k.draft definition).type = .ok schema := hschema
  rw [hnormalized, checkPrepared, hschema]
  simp only [hcheck, haccepts, bind, Except.bind]
  rfl

end Administered

variable [TextLibrary]

/-- The administrator may replace what has no markers. -/
theorem Sound.checkReplaced_admin (hk : k.Sound) {c : Contract} (hversion : c.version = "1.0.0")
    (hplain : ∀ found, k.store.find? c.slug (.exact Version.initial) = some found →
      found.markers = []) : k.checkReplaced adminMask c = .ok () := by
  have hparsed : c.parsedVersion = .ok Version.initial := by
    rw [Contract.parsedVersion, hversion]
    rfl
  rw [checkReplaced, hparsed]
  simp only [bind, Except.bind]
  cases hfound : k.store.find? c.slug (.exact Version.initial) with
  | none => rfl
  | some found =>
      have hshows : k.shows adminMask found = true := by
        rw [hk.shows_eq compiles_adminMask, meets_adminMask _ (hplain found hfound)]
      have hvisible := hk.visible_of_mem compiles_adminMask
        (fun _ _ _ => forbids_adminMask "id") (Store.mem_of_find? hfound)
      rw [if_pos hshows] at hvisible
      simp only [hvisible, Option.isSome_some, if_true]
      rfl

variable [TextLibrary.ReadsBuiltin]

/-- The administrator replaces what has no markers by a definition that fits
    its type. -/
theorem Administered.replaceFor_ok (h : k.Administered actor session) (hd : Plain definition)
    (hs : k.Supplied (uses + 2)) {schema : Schema}
    (hschema : k.typeSchema (typeOf definition) = .ok schema)
    (hcheck : schema.check (k.draft definition).toJson k.linkSource = .ok ())
    (hplain : ∀ found, k.store.find? (slugOf definition) (.exact Version.initial)
      = some found → found.markers = []) :
    ∃ w l, (replaceFor session definition).run k = (.ok w, l)
      ∧ l.store.Holds definition w.id ∧ l.Supplied uses := by
  have hinside : (replaceNamed adminMask (k.draft definition)).run
      { k with supply := k.supply.next, depth := k.depth + 1 }
        = (.ok (k.placed (k.draft definition)),
          { k.bootstrapped (k.draft definition) with depth := k.depth + 1 }) := by
    have hsound : Sound { k with supply := k.supply.next, depth := k.depth + 1 } :=
      ⟨h.sound.settings, h.sound.store, h.sound.outage⟩
    rw [replaceNamed, run_bind, run_reading, hsound.checkReplaced_admin rfl hplain]
    dsimp only
    rw [upsert_run, if_neg (by simp [h.sound.outage]),
      write_inner (Nat.succ_pos _) (write_draft hd hs)]
    rfl
  have hsteps : (replaceFor session definition).run k
      = (transaction (replaceNamed adminMask (k.draft definition))).run
          { k with supply := k.supply.next } := by
    rw [replaceFor_run, h.mask_eq]
    dsimp only
    rw [h.prepare_eq hd hs hschema hcheck]
  have hheld := holds_bootstrapped h.sound hd hs
  have hsupplied := supplied_bootstrapped h.sound hd hs
  rw [← id_placed definition hs] at hheld
  -- nothing else of the kernel that was left inside the transaction matters
  generalize k.bootstrapped (k.draft definition) = l at hinside hheld hsupplied
  obtain ⟨pending, announced, hrun⟩ :=
    transaction_ok (k := { k with supply := k.supply.next }) hinside
  exact ⟨_, _, hsteps.trans hrun, hheld,
    ⟨hsupplied.uuid, hsupplied.new, hsupplied.distinct, hsupplied.told⟩⟩

/-- The administrator replaces a built-in contract by a definition with its
    slug that its type accepts. -/
theorem Administered.replaceFor_held (h : k.Administered actor session)
    (hd : Plain definition) (hs : k.Supplied (uses + 2)) {typeId heldId : String}
    (htype : k.store.Holds type typeId)
    (href : Reference.parse (typeOf definition) = .ok ⟨slugOf type, .exact Version.initial⟩)
    (haccepts : Builtin.accepts type definition = true) {held : Json}
    (hheld : k.store.Holds held heldId) (hslug : slugOf definition = slugOf held) :
    ∃ w l, (replaceFor session definition).run k = (.ok w, l)
      ∧ l.store.Holds definition w.id ∧ l.Supplied uses := by
  obtain ⟨schema, hschema, hcheck⟩ := check_of_accepts h.sound haccepts
    (k.supply.id k.supply.used) k.supply.now
  have hstored := (typeSchema_of_holds htype href).trans hschema
  refine h.replaceFor_ok hd hs hstored hcheck fun found hfound => ?_
  obtain ⟨createdAt, updatedAt, hfirst⟩ := hheld
  rw [hslug, hfirst] at hfound
  obtain rfl := Option.some.inj hfound
  rfl

end Kernel

end LinkedContracts
