import LinkedContracts.Proofs.Kernel.Bootstrapped
import LinkedContracts.Proofs.Kernel.Undone

/-! # Built-in contracts, one after the other

    Initializing writes the built-in contracts in an order in which each
    finds its type written already.  Only two things can fail: the type of
    types, which is checked against the one that is stored, and the session,
    which names the id that the administrator keeps. -/

namespace LinkedContracts

namespace Kernel

open Builtin Stateful

variable {k l m : Kernel} {definition type : Json} {actor : String} {uses : Nat}

/-- What is written after the administrator has other slugs. -/
theorem slug_ne_later (actor : String) : ∀ d ∈ coreTypes ++ [adminRole] ++ [Builtin.admin],
    ∀ e ∈ [Builtin.adminSession actor] ++ extraTypes, slugOf d ≠ slugOf e := by
  have hslug : slugOf (Builtin.adminSession actor) = adminSessionSlug := rfl
  simp only [List.singleton_append, List.forall_mem_cons, hslug]
  decide

theorem schemaOf_ne_unknownType (c : Contract) (reference : String) :
    schemaOf c ≠ .error (.unknownType reference) := by
  intro h
  simp only [schemaOf, Schema.ofJson] at h
  repeat' split at h
  all_goals cases h

variable [TextLibrary]

/-! ## One definition after the other -/

/-- The built-in contracts of some definitions were written, and so many ids
    and times are left. -/
structure Installs (k l : Kernel) (definitions : List Json) (uses : Nat) : Prop where
  sound : l.Sound
  depth : l.depth = k.depth
  supply : l.supply = { k.supply with used := k.supply.used + 2 * definitions.length }
  supplied : l.Supplied uses
  edges : l.store.edges = k.store.edges
  holds : ∀ d ∈ definitions, ∃ id, l.store.Holds d id
  /-- What has other slugs is found as before. -/
  spares : ∀ slug, (∀ d ∈ definitions, slugOf d ≠ slug) → ∀ choice,
    l.store.find? slug choice = k.store.find? slug choice
  /-- What is new is in its first version. -/
  first : ∀ c ∈ l.store.contracts, c ∈ k.store.contracts ∨ c.version = "1.0.0"
  refreshed : (∀ d ∈ definitions, ∃ id, k.store.Holds d id) → k.store.Refreshed l.store

theorem Installs.nil (hk : k.Sound) (hs : k.Supplied uses) : Installs k k [] uses where
  sound := hk
  depth := rfl
  supply := rfl
  supplied := hs
  edges := rfl
  holds := nofun
  spares _ _ _ := rfl
  first _ hc := .inl hc
  refreshed _ := .refl _

/-- What is stored stays under its id while others are written. -/
theorem Installs.holds_of_ne {definitions : List Json} (h : Installs k l definitions uses)
    (hother : ∀ d ∈ definitions, slugOf d ≠ slugOf definition) {id : String} :
    l.store.Holds definition id ↔ k.store.Holds definition id := by
  simp only [Store.Holds, h.spares _ hother]

theorem Installs.trans {ds es : List Json} {rest : Nat} (h : Installs k l ds rest)
    (h' : Installs l m es uses) (hslugs : ∀ d ∈ ds, ∀ e ∈ es, slugOf d ≠ slugOf e) :
    Installs k m (ds ++ es) uses where
  sound := h'.sound
  depth := h'.depth.trans h.depth
  supply := by
    rw [h'.supply, h.supply, List.length_append, Nat.mul_add, ← Nat.add_assoc]
  supplied := h'.supplied
  edges := h'.edges.trans h.edges
  holds d hd := by
    rcases List.mem_append.mp hd with hd | hd
    · obtain ⟨id, hid⟩ := h.holds d hd
      exact ⟨id, (h'.holds_of_ne fun e he => (hslugs d hd e he).symm).mpr hid⟩
    · exact h'.holds d hd
  spares slug hslug choice := by
    rw [h'.spares slug (fun e he => hslug e (List.mem_append_right _ he)),
      h.spares slug fun d hd => hslug d (List.mem_append_left _ hd)]
  first c hc := by
    rcases h'.first c hc with hc | hversion
    · exact h.first c hc
    · exact .inr hversion
  refreshed hall := by
    refine (h.refreshed fun d hd => hall d (List.mem_append_left _ hd)).trans
      (h'.refreshed fun e he => ?_)
    obtain ⟨id, hid⟩ := hall e (List.mem_append_right _ he)
    exact ⟨id, (h.holds_of_ne fun d hd => hslugs d hd e he).mpr hid⟩

section

variable [TextLibrary.ReadsBuiltin]

/-- One definition that fits its type is written. -/
theorem Installs.one (hk : k.Sound) (hdepth : 0 < k.depth) (hd : Plain definition)
    (hs : k.Supplied (uses + 2)) (hfits : k.fits (k.draft definition) = .ok ()) :
    ∃ w l, (bootstrap definition).run k = (.ok w, l) ∧ w.id = k.keptId definition
      ∧ l.store.Holds definition w.id ∧ Installs k l [definition] uses := by
  have hrun := bootstrap_run hk hdepth hd hs
  rw [hfits] at hrun
  have hid := id_placed definition hs
  have hholds := holds_bootstrapped hk hd hs
  refine ⟨_, _, hrun, hid, hid ▸ hholds, ?_⟩
  constructor
  · exact sound_bootstrapped hk hd hs
  · rfl
  · rfl
  · exact supplied_bootstrapped hk hd hs
  · exact (rows_bootstrapped hd).2
  · simpa using ⟨_, hholds⟩
  · intro slug hslug choice
    exact find?_bootstrapped hk hd hs (hslug definition List.mem_cons_self) choice
  · exact fun c hc => first_bootstrapped hk hd hs hc
  · intro hall
    obtain ⟨id, hid⟩ := hall definition List.mem_cons_self
    exact refreshed_bootstrapped hk hd hs hid

/-- Definitions of one type that is stored are written one after the other. -/
theorem Installs.each {definitions : List Json} (hk : k.Sound) (hdepth : 0 < k.depth)
    (hs : k.Supplied (uses + 2 * definitions.length))
    (hds : ∀ d ∈ definitions, Instantiates d type)
    (hslugs : (definitions.map slugOf).Nodup) {id : String}
    (htype : k.store.Holds type id) :
    ∃ ws l, (definitions.mapM bootstrap).run k = (.ok ws, l)
      ∧ Installs k l definitions uses := by
  induction definitions generalizing k with
  | nil => exact ⟨[], k, rfl, .nil hk hs⟩
  | cons d rest ih =>
      obtain ⟨hd, hrest⟩ := List.forall_mem_cons.mp hds
      obtain ⟨hne, hslugs⟩ := List.nodup_cons.mp hslugs
      have hs : k.Supplied (uses + 2 * rest.length + 2) := hs
      obtain ⟨w, l, hrun, -, -, hone⟩ := Installs.one hk hdepth hd.plain hs
        (hd.fits hk htype)
      obtain ⟨ws, m, hruns, hall⟩ := ih hone.sound (hone.depth ▸ hdepth) hone.supplied
        hrest hslugs ((hone.holds_of_ne (by simpa using hd.other)).mpr htype)
      refine ⟨w :: ws, m, ?_, hone.trans hall ?_⟩
      · rw [List.mapM_cons, run_bind_ok hrun, run_bind_ok hruns]
        rfl
      · intro d' hd' e he heq
        obtain rfl := List.mem_singleton.mp hd'
        exact hne (heq ▸ List.mem_map_of_mem he)

/-! ## The order of the definitions -/

theorem instantiates_type : ∀ d ∈ [Builtin.session, user, role] ++ extraTypes,
    Instantiates d typeType := by
  intro d hd
  have hmem : d ∈ coreTypes ++ extraTypes := List.mem_cons_of_mem _ hd
  refine ⟨plain_type d hmem, ?_, ?_, typeType_accepts d hmem⟩
  · clear hmem
    revert d
    decide +kernel
  · clear hmem
    revert d
    simp only [extraTypes, List.cons_append, List.nil_append, List.forall_mem_cons]
    exact ⟨rfl, rfl, rfl, rfl, rfl, rfl, rfl, List.forall_mem_nil _⟩

theorem instantiates_adminRole : Instantiates adminRole role :=
  ⟨plain_adminRole, by decide, rfl, role_accepts⟩

theorem instantiates_admin : Instantiates Builtin.admin user :=
  ⟨plain_admin, by decide, rfl, user_accepts⟩

end

/-! ## Up to the administrator, and after -/

/-- The id that the administrator keeps, or is given.  Five contracts are
    written before it, and each uses up two of the supply. -/
def adminId (k : Kernel) : String :=
  match k.store.find? adminSlug (.exact Version.initial) with
  | some c => c.id
  | none => k.supply.id (k.supply.used + 10)

/-- What is left to do once there is an administrator. -/
def openSession (actor : String) : Action Contract := do
  let session ← bootstrap (Builtin.adminSession actor)
  let _ ← extraTypes.mapM bootstrap
  return session

theorem bootstrapAll_eq : bootstrapAll =
    (do
      let _ ← coreTypes.mapM bootstrap
      let _ ← bootstrap adminRole
      let w ← bootstrap Builtin.admin
      openSession w.id) := rfl

theorem keptId_admin (h : Installs k l (coreTypes ++ [adminRole]) uses) :
    l.keptId Builtin.admin = k.adminId := by
  have hslug : slugOf Builtin.admin = adminSlug := by decide
  have hused : l.supply.id l.supply.used = k.supply.id (k.supply.used + 10) := by
    rw [h.supply]
    rfl
  have hfound := h.spares adminSlug (by decide) (.exact Version.initial)
  cases hc : k.store.find? adminSlug (.exact Version.initial) with
  | none => simp only [keptId, adminId, hslug, hfound, hc, hused]
  | some c => simp only [keptId, adminId, hslug, hfound, hc]

/-! ## What can fail -/

/-- Whether the type of types that is stored, if it is active, accepts the
    definition of the type of types. -/
def AcceptsTypes (k : Kernel) : Prop :=
  ∀ c, k.store.find? "type" (.exact Version.initial) = some c → c.active = true →
    ∃ schema, schemaOf c = .ok schema
      ∧ schema.check (k.draft typeType).toJson k.linkSource = .ok ()

variable [TextLibrary.ReadsBuiltin]

/-- The type of types is written over one that accepts it, and describes
    itself where there is none. -/
theorem fits_typeType (hk : k.Sound) :
    k.fits (k.draft typeType) = .ok () ↔ k.AcceptsTypes := by
  have htype : (k.draft typeType).type = "type@1.0.0" := rfl
  have href : Reference.parse "type@1.0.0" = .ok ⟨"type", .exact Version.initial⟩ := rfl
  rw [fits, builtinSchema, htype, AcceptsTypes]
  cases hfound : (k.store.find? "type" (.exact Version.initial)).filter Contract.active with
  | none =>
      -- no type of types is in use, so the draft is its own type
      have hunknown : k.typeSchema "type@1.0.0" = .error (.unknownType "type@1.0.0") := by
        rw [typeSchema, href]
        dsimp only
        rw [hfound]
      have hself : (k.draft typeType).versionedSlug = "type@1.0.0" := by
        show "type" ++ "@" ++ "1.0.0" = "type@1.0.0"
        decide
      obtain ⟨schema, hown, hcheck⟩ := check_of_accepts hk
        (typeType_accepts typeType List.mem_cons_self) (k.supply.id k.supply.used)
        k.supply.now
      have hschema : schemaOf (k.draft typeType) = .ok schema := hown
      refine iff_of_true ?_ fun c hc hactive => ?_
      · rw [hunknown]
        dsimp only
        rw [if_pos hself, hschema]
        exact hcheck
      · rw [hc, Option.filter_some_pos hactive] at hfound
        cases hfound
  | some c =>
      obtain ⟨hc, hactive⟩ := Option.filter_eq_some_iff.mp hfound
      rw [typeSchema_eq href hc hactive]
      constructor
      · intro h d hd _
        obtain rfl := Option.some.inj (hc.symm.trans hd)
        obtain ⟨schema, hschema, hcheck⟩ := except_bind_ok h
        refine ⟨schema, ?_, hcheck⟩
        split at hschema
        · next heq => exact absurd heq (schemaOf_ne_unknownType c _)
        · exact hschema
      · intro h
        obtain ⟨schema, hschema, hcheck⟩ := h c hc hactive
        rw [hschema]
        exact hcheck

/-- A session is written exactly if the id of its actor is of the format of
    ids. -/
theorem fits_session (hk : k.Sound) {id : String} (h : k.store.Holds Builtin.session id) :
    k.fits (k.draft (Builtin.adminSession actor)) = .ok () ↔ IsUuid actor := by
  have htype : typeOf (Builtin.adminSession actor) = "session@1.0.0" := rfl
  have href : Reference.parse (typeOf (Builtin.adminSession actor))
      = .ok ⟨slugOf Builtin.session, .exact Version.initial⟩ := by
    rw [htype]
    rfl
  rw [fits_of_holds h href schemaIn_session]
  exact check_session hk actor _ _

/-! ## Running -/

/-- The types that everything else relies on are written. -/
theorem installs_coreTypes (hk : k.Sound) (hdepth : 0 < k.depth)
    (hs : k.Supplied (uses + 8)) (htypes : k.AcceptsTypes) :
    ∃ ws l, (coreTypes.mapM bootstrap).run k = (.ok ws, l)
      ∧ Installs k l coreTypes uses := by
  have hs : k.Supplied (uses + 6 + 2) := hs
  obtain ⟨w, l, hrun, -, hholds, hone⟩ := Installs.one hk hdepth
    (plain_type typeType List.mem_cons_self) hs ((fits_typeType hk).mpr htypes)
  have hmore : ∀ d ∈ [Builtin.session, user, role], Instantiates d typeType :=
    fun d hd => instantiates_type d (List.mem_append_left _ hd)
  obtain ⟨ws, m, hruns, hrest⟩ := Installs.each hone.sound (hone.depth ▸ hdepth)
    hone.supplied hmore (by decide) hholds
  refine ⟨w :: ws, m, ?_, hone.trans hrest (by decide)⟩
  rw [coreTypes, List.mapM_cons, run_bind_ok hrun, run_bind_ok hruns]
  rfl

/-- Initializing comes to the administrator with the id that it keeps, if the
    type of types is accepted. -/
theorem installs_admin (hk : k.Sound) (hdepth : 0 < k.depth)
    (hs : k.Supplied (uses + 22)) (htypes : k.AcceptsTypes) :
    ∃ l, bootstrapAll.run k = (openSession k.adminId).run l
      ∧ l.store.Holds Builtin.admin k.adminId
      ∧ Installs k l (coreTypes ++ [adminRole] ++ [Builtin.admin]) (uses + 10) := by
  obtain ⟨ws, l₁, hrun₁, h₁⟩ := installs_coreTypes hk hdepth
    (show k.Supplied (uses + 14 + 8) from hs) htypes
  obtain ⟨roleId, hrole⟩ := h₁.holds role (by simp [coreTypes])
  obtain ⟨userId, huser⟩ := h₁.holds user (by simp [coreTypes])
  obtain ⟨w₂, l₂, hrun₂, -, -, h₂⟩ := Installs.one h₁.sound (h₁.depth ▸ hdepth)
    plain_adminRole (show l₁.Supplied (uses + 12 + 2) from h₁.supplied)
    (instantiates_adminRole.fits h₁.sound hrole)
  have h₁₂ := h₁.trans h₂ (by decide)
  have huser₂ := (h₂.holds_of_ne (by decide)).mpr huser
  obtain ⟨w, l, hrun, hid, hholds, h₃⟩ := Installs.one h₁₂.sound (h₁₂.depth ▸ hdepth)
    plain_admin (show l₂.Supplied (uses + 10 + 2) from h₁₂.supplied)
    (instantiates_admin.fits h₁₂.sound huser₂)
  have hkept : w.id = k.adminId := hid.trans (keptId_admin h₁₂)
  refine ⟨l, ?_, hkept ▸ hholds, h₁₂.trans h₃ (by decide)⟩
  rw [bootstrapAll_eq, run_bind_ok hrun₁, run_bind_ok hrun₂, run_bind_ok hrun, hkept]

/-! ## The session -/

theorem openSession_refused (hk : k.Sound) (hdepth : 0 < k.depth)
    (hs : k.Supplied (uses + 2)) {id : String} (hsession : k.store.Holds Builtin.session id)
    (hactor : ¬IsUuid actor) : ∃ e, ((openSession actor).run k).1 = .error e := by
  refine bind_refused _ ?_
  rw [bootstrap_run hk hdepth (plain_adminSession actor) hs]
  split
  · next hfits => exact absurd ((fits_session hk hsession).mp hfits) hactor
  · next e _ => exact ⟨e, rfl⟩

/-- The session of an actor is written under the id that it keeps, and then
    the other types. -/
theorem openSession_ok (hk : k.Sound) (hdepth : 0 < k.depth)
    (hs : k.Supplied (uses + 10)) {typeId id : String}
    (htype : k.store.Holds typeType typeId) (hsession : k.store.Holds Builtin.session id)
    (hactor : IsUuid actor) :
    ∃ s l, (openSession actor).run k = (.ok s, l)
      ∧ s.id = k.keptId (Builtin.adminSession actor)
      ∧ l.store.Holds (Builtin.adminSession actor) s.id
      ∧ Installs k l ([Builtin.adminSession actor] ++ extraTypes) uses := by
  obtain ⟨s, l, hrun, hid, hholds, hone⟩ := Installs.one hk hdepth (plain_adminSession actor)
    (show k.Supplied (uses + 8 + 2) from hs) ((fits_session hk hsession).mpr hactor)
  have hslug : slugOf (Builtin.adminSession actor) = adminSessionSlug := rfl
  have htype : l.store.Holds typeType typeId := by
    refine (hone.holds_of_ne fun d hd => ?_).mpr htype
    rw [List.mem_singleton.mp hd, hslug]
    decide
  have hmore : ∀ d ∈ extraTypes, Instantiates d typeType :=
    fun d hd => instantiates_type d (List.mem_append_right _ hd)
  obtain ⟨ws, m, hruns, hrest⟩ := Installs.each hone.sound (hone.depth ▸ hdepth)
    hone.supplied hmore (by decide) htype
  have hother : ∀ d ∈ extraTypes, slugOf d ≠ adminSessionSlug := by decide
  refine ⟨s, m, ?_, hid, (hrest.holds_of_ne fun d hd => hslug ▸ hother d hd).mpr hholds,
    hone.trans hrest fun d hd e he => ?_⟩
  · rw [openSession, run_bind_ok hrun, run_bind_ok hruns]
    rfl
  · rw [List.mem_singleton.mp hd, hslug]
    exact (hother e he).symm

/-! ## All of it -/

/-- Everything is written if the type of types is accepted and the id of the
    administrator is of the format of ids.  A session that is there is opened
    again. -/
theorem bootstrapAll_ok (hk : k.Sound) (hdepth : 0 < k.depth)
    (hs : k.Supplied (uses + 22)) (htypes : k.AcceptsTypes) (hadmin : IsUuid k.adminId) :
    ∃ s l, bootstrapAll.run k = (.ok s, l)
      ∧ Installs k l (all k.adminId) uses
      ∧ l.store.Holds Builtin.admin k.adminId
      ∧ l.store.Holds (Builtin.adminSession k.adminId) s.id
      ∧ ∀ id, k.store.Holds (Builtin.adminSession k.adminId) id → s.id = id := by
  obtain ⟨l, hrun, hholds, hfirst⟩ := installs_admin hk hdepth hs htypes
  obtain ⟨typeId, htype⟩ := hfirst.holds typeType (by simp [coreTypes])
  obtain ⟨sessionId, hsession⟩ := hfirst.holds Builtin.session (by simp [coreTypes])
  obtain ⟨s, m, hopen, hid, hopened, hrest⟩ := openSession_ok hfirst.sound
    (hfirst.depth ▸ hdepth) hfirst.supplied htype hsession hadmin
  have hother := slug_ne_later k.adminId
  refine ⟨s, m, hrun.trans hopen, hfirst.trans hrest hother,
    (hrest.holds_of_ne fun e he => (hother _ (by simp) e he).symm).mpr hholds, hopened,
    fun id h => ?_⟩
  exact hid.trans (keptId_of_holds
    ((hfirst.holds_of_ne fun d hd => hother d hd _ List.mem_cons_self).mpr h))

theorem bootstrapAll_refused (hk : k.Sound) (hdepth : 0 < k.depth)
    (hs : k.Supplied (uses + 22)) (hrefused : k.AcceptsTypes → ¬IsUuid k.adminId) :
    ∃ e, (bootstrapAll.run k).1 = .error e := by
  by_cases htypes : k.AcceptsTypes
  · obtain ⟨l, hrun, -, hfirst⟩ := installs_admin hk hdepth hs htypes
    obtain ⟨sessionId, hsession⟩ := hfirst.holds Builtin.session (by simp [coreTypes])
    have hs : l.Supplied (uses + 8 + 2) := hfirst.supplied
    rw [hrun]
    exact openSession_refused hfirst.sound (hfirst.depth ▸ hdepth) hs hsession (hrefused htypes)
  · have hs : k.Supplied (uses + 20 + 2) := hs
    rw [bootstrapAll, coreTypes, List.mapM_cons]
    refine bind_refused _ (bind_refused _ ?_)
    rw [bootstrap_run hk hdepth (plain_type typeType List.mem_cons_self) hs]
    split
    · next hfits => exact absurd ((fits_typeType hk).mp hfits) htypes
    · next e _ => exact ⟨e, rfl⟩

end Kernel

end LinkedContracts
