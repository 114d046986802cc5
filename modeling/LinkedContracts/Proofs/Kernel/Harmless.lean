import LinkedContracts.Proofs.Faults
import LinkedContracts.Proofs.Kernel.Patched
import LinkedContracts.Proofs.Mask
import LinkedContracts.Proofs.Patch.Added
import LinkedContracts.Proofs.Schema.Columns

/-! # Patches that only test

    A patch of tests that hold of what a session sees changes nothing, and
    there is nothing to forbid.  Yet what is seen is put to the mask again,
    without the columns that the mask hides: these read as null.  The patch is
    refused where the mask does not accept a null in their place.

    A mask that reads of a contract only columns that it leaves alone refuses
    no such patch.  A mask that hides the markers refuses all of them. -/

namespace LinkedContracts

/-- Whether an operation is a test that holds of a document. -/
def PatchOperation.Confirms (op : PatchOperation) (doc : Json) : Prop :=
  ∃ path value ts actual, op = .test path value ∧ Pointer.parse? path = some ts
    ∧ doc.lookup? ts = some actual ∧ actual.equal value = true

namespace Patch

variable {op : PatchOperation} {operations : List PatchOperation} {doc : Json}

/-- A test that holds passes, unless it is about the document as a whole. -/
theorem step_of_confirms (slug : String) (h : op.Confirms doc) :
    step slug doc op = if Pointer.parse? op.path = some []
      then .error (.patchDoesNotApply slug .wholeContract) else .ok doc := by
  obtain ⟨path, value, ts, actual, rfl, hparse, hlookup, hequal⟩ := h
  have hpath : (PatchOperation.test path value).path = path := rfl
  rw [hpath, hparse]
  cases ts with
  | nil =>
      simp [step, touchesImmutable, isImmutable, hpath, hparse, checkSource,
        PatchOperation.source?, hlookup, applyOperation, tokens, bind, Except.bind]
  | cons t rest =>
      have hts : tokens path = .ok (t :: rest) := by simp [tokens, hparse]
      rw [if_neg (by simp)]
      exact step_test hts hlookup hequal

/-- Tests that hold leave the document, unless one is about it as a whole. -/
theorem apply_of_confirms (h : ∀ op ∈ operations, op.Confirms doc) :
    apply doc operations
      = if ∀ op ∈ operations, Pointer.parse? op.path ≠ some [] then .ok doc
        else .error (.patchDoesNotApply ((doc.stringField? "slug").getD "")
          .wholeContract) := by
  rw [apply]
  generalize (doc.stringField? "slug").getD "" = slug
  induction operations with
  | nil => simp [pure, Except.pure]
  | cons op rest ih =>
      have hstep := step_of_confirms slug (h op List.mem_cons_self)
      have hrest := ih fun op hop => h op (List.mem_cons_of_mem _ hop)
      rw [List.foldlM_cons, hstep]
      by_cases hwhole : Pointer.parse? op.path = some []
      · simp [hwhole, bind, Except.bind]
      · simpa [hwhole, bind, Except.bind] using hrest

end Patch

namespace Kernel

variable {k : Kernel} {session reference : String} {mask : Schema} {r : Reference}
  {operations : List PatchOperation} {full : Contract}

/-! ## What a mask makes of what it left -/

/-- What a mask leaves of a contract differs in nothing from itself that the
    mask forbids. -/
theorem forbiddenChange_redact (mask : Schema) (c : Contract) :
    forbiddenChange mask (Mask.redact c.toRow mask) (Mask.redact c.toRow mask)
      = none := by
  refine List.find?_eq_none.mpr fun key hkey => ?_
  have hkey : key ∈ Dict.keys (Mask.redactRow c.rowFields mask) :=
    (List.mem_append.mp hkey).elim id id
  have hthere := Dict.mem_keys.mp hkey
  have hlinks : key ≠ "links" := by
    rintro rfl
    rw [Mask.find?_redactRow_links] at hthere
    exact hthere rfl
  have hallowed := (Mask.field?_redact_ne_none (c := c.toRow) hlinks).mp hthere
  simp [hallowed.2]

/-- A patch of tests that hold shows what was seen before, or is refused. -/
theorem Sound.patchView_of_confirms [TextLibrary] (hk : k.Sound) (reference : String)
    (hcompiles : mask.Compiles)
    (htests : ∀ op ∈ operations, op.Confirms (Mask.redact full.toRow mask))
    (hwhole : ∀ op ∈ operations, Pointer.parse? op.path ≠ some []) :
    k.patchView mask reference (Mask.redact full.toRow mask) operations
      = if mask.meets k.store.rowsLinked .contract (Mask.redact full.toRow mask)
        then .ok (Mask.redact full.toRow mask)
        else .error (.patchedInvisible reference) := by
  have happly := Patch.apply_of_confirms htests
  rw [if_pos hwhole] at happly
  simp only [patchView, happly, forbiddenChange_redact, hk.accepts_eq hcompiles, bind,
    Except.bind]
  split <;> rfl

/-! ## Errors of permitted patches -/

/-- The kinds of errors with which a patch that is permitted may fail. -/
def permittedKinds : List ErrorKind :=
  [.compile, .unknownType, .schemaMismatch, .invalidPatch, .invalidId, .invalidSlug,
   .invalidVersion, .elementAlreadyExists, .databaseTimeout]

theorem typeSchema_failsAs (k : Kernel) (type : String) :
    FailsAs permittedKinds (k.typeSchema type) := by
  rw [typeSchema]
  split
  · exact .error (by simp [Error.kind, permittedKinds])
  split
  · exact .error (by simp [Error.kind, permittedKinds])
  · exact (Schema.ofJson_failsAs _).mono (by decide)

theorem Sound.checkPatched_failsAs [TextLibrary] (hk : k.Sound) (schema : Schema) (patched : Json) :
    FailsAs permittedKinds (k.checkPatched schema patched) := by
  have hcheck := schema.check_failsAs patched k.store.rowsLinked
  rw [checkPatched, hk.linkSource]
  split
  · exact .error (by decide)
  · exact hcheck.mono (by decide)

theorem readPatched_failsAs (patched : Json) :
    FailsAs permittedKinds (readPatched patched) := by
  rw [readPatched]
  split
  · exact .error (by decide)
  · exact ((Contract.checkIdentity_failsAs _).mono (by decide)).map

theorem upsert_failsAs (c : Contract) (k : Kernel) :
    FailsAs permittedKinds ((upsert c).run k).1 := by
  rw [upsert_run]
  split
  · exact .error (by simp [Error.kind, permittedKinds])
  intro e he
  rcases write_store .upsert c k with ⟨fault, hwrite, hresult, -⟩ | ⟨_, _, -, hresult, -⟩
  · obtain rfl := Except.error.inj (hresult.symm.trans he)
    have hkind := k.store.write_failsAs k.supply.now .upsert c fault hwrite
    exact (by decide : _ ⊆ permittedKinds) hkind
  · cases hresult.symm.trans he

section

variable [TextLibrary]

/-- A patch is refused where its steps are: writing is not. -/
theorem patchFor_refused_iff (hmask : k.mask session = .ok mask)
    (href : Reference.parse reference = .ok r) :
    (∃ e, ((patchFor session reference operations).run k).1 = .error e
        ∧ e.kind = .permissions)
      ↔ ∃ e, k.patched mask reference r operations = .error e
        ∧ e.kind = .permissions := by
  rw [patchFor_run, href, hmask]
  dsimp only
  rw [(transaction_store _ k).1, patchNamed, Stateful.run_bind, run_reading]
  show _ ↔ ∃ e, ({ k with depth := k.depth + 1 } : Kernel).patched mask reference r
    operations = .error e ∧ e.kind = .permissions
  cases ({ k with depth := k.depth + 1 } : Kernel).patched mask reference r
      operations with
  | error e => simp
  | ok p =>
      have hsucceeds : ¬∃ e, (.ok p : Except Error Patched) = .error e
          ∧ e.kind = .permissions := by
        rintro ⟨e, he, -⟩
        cases he
      refine iff_of_false ?_ hsucceeds
      rintro ⟨e, he, hkind⟩
      dsimp only at he
      cases hc : p.contract with
      | none =>
          rw [hc] at he
          cases he
      | some c =>
          rw [hc] at he
          dsimp only at he
          rw [Stateful.run_bind] at he
          have hupsert := upsert_failsAs c { k with depth := k.depth + 1 }
          cases hu : (upsert c).run { k with depth := k.depth + 1 } with
          | mk result after =>
              rw [hu] at hupsert he
              cases result with
              | ok _ => cases he
              | error fault =>
                  obtain rfl := Except.error.inj he
                  have hpermitted := hupsert fault rfl
                  rw [hkind] at hpermitted
                  exact absurd hpermitted (by decide)

/-- Once the view is patched, a patch fails for other reasons only. -/
theorem Sound.image_failsAs (hk : k.Sound) (schema : Schema) (patchedView : Json) :
    FailsAs permittedKinds (do
      let image ← Patch.apply full.toJson operations
      k.checkPatched schema image
      if image.equal full.toJson then return ⟨patchedView, none⟩
      else return ⟨patchedView, some (← readPatched image)⟩ : Except Error Patched) := by
  refine .bind ((Patch.apply_failsAs _ _).mono (by decide)) fun image =>
    .bind (hk.checkPatched_failsAs schema image) fun _ => ?_
  split
  · exact .ok _
  · exact .bind (readPatched_failsAs image) fun c => .ok _

/-- When a patch of tests that hold is refused. -/
structure Refuses (k : Kernel) (mask : Schema) (full : Contract)
    (operations : List PatchOperation) : Prop where
  nonempty : operations ≠ []
  /-- No test is about the contract as a whole: such patches are invalid. -/
  parts : ∀ op ∈ operations, Pointer.parse? op.path ≠ some []
  typed : ∃ schema, k.typeSchema (Reference.ofType full.type) = .ok schema
  /-- The mask does not accept what it leaves of the contract. -/
  unaccepted : k.accepts mask (Mask.redact full.toRow mask) = .ok false

theorem Sound.patched_refused_iff (hk : k.Sound) (hcompiles : mask.Compiles)
    (hfull : k.store.find? r.slug r.version = some full)
    (hview : k.visible mask full.id = .ok (some (Mask.redact full.toRow mask)))
    (htests : ∀ op ∈ operations, op.Confirms (Mask.redact full.toRow mask)) :
    (∃ e, k.patched mask reference r operations = .error e ∧ e.kind = .permissions)
      ↔ k.Refuses mask full operations := by
  have hid := hk.store.contract?_eq_some.mpr ⟨Store.mem_of_find? hfull, rfl⟩
  have permitted {α : Type} {x : Except Error α} (hx : FailsAs permittedKinds x) :
      ¬∃ e, x = .error e ∧ e.kind = .permissions := by
    rintro ⟨e, he, hkind⟩
    have hpermitted := hx e he
    rw [hkind] at hpermitted
    exact absurd hpermitted (by decide)
  by_cases hne : operations = []
  · subst hne
    rw [patched_nil hfull hid hview]
    exact iff_of_false (permitted (.ok _)) fun h => h.nonempty rfl
  rw [patched_cons hfull hid hview hne]
  cases hschema : k.typeSchema (Reference.ofType full.type) with
  | error e =>
      have hfails := k.typeSchema_failsAs (Reference.ofType full.type) e hschema
      refine iff_of_false (permitted (FailsAs.error hfails)) fun h => ?_
      obtain ⟨schema, htyped⟩ := h.typed
      cases hschema.symm.trans htyped
  | ok schema =>
      by_cases hwhole : ∀ op ∈ operations, Pointer.parse? op.path ≠ some []
      · have hpatched := hk.patchView_of_confirms reference hcompiles htests hwhole
        have haccepts := hk.accepts_eq hcompiles (Mask.redact full.toRow mask)
        cases hmeets : mask.meets k.store.rowsLinked .contract
            (Mask.redact full.toRow mask) with
        | true =>
            rw [hmeets, if_pos rfl] at hpatched
            rw [hmeets] at haccepts
            rw [hpatched]
            refine iff_of_false (permitted (hk.image_failsAs schema _)) fun h => ?_
            cases haccepts.symm.trans h.unaccepted
        | false =>
            rw [hmeets, if_neg Bool.false_ne_true] at hpatched
            rw [hmeets] at haccepts
            rw [hpatched]
            exact iff_of_true ⟨_, rfl, rfl⟩ ⟨hne, hwhole, ⟨schema, hschema⟩, haccepts⟩
      · have happly := Patch.apply_of_confirms htests
        rw [if_neg hwhole] at happly
        generalize ((Mask.redact full.toRow mask).stringField? "slug").getD "" = slug
          at happly
        have hpatched : k.patchView mask reference (Mask.redact full.toRow mask)
            operations = .error (.patchDoesNotApply slug .wholeContract) := by
          rw [patchView, happly]
          rfl
        rw [hpatched]
        exact iff_of_false (permitted (.error (by simp [Error.kind, permittedKinds])))
          fun h => hwhole h.parts

end

/-! ## When patches of tests are refused -/

/-- The mask of a session asks for the markers, unless it shows nothing. -/
theorem mask_asks_markers (hmask : k.mask session = .ok mask) :
    mask = .bool false ∨ ∃ rest markers, mask = .conj rest
      ∧ Mask.ofMarkers markers ∈ rest := by
  obtain ⟨actor, -, hmask⟩ := except_bind_ok hmask
  obtain ⟨roles, -, hmask⟩ := except_bind_ok hmask
  split at hmask
  · exact .inl (Except.ok.inj hmask).symm
  · exact .inr ⟨_, actor.markers, (Except.ok.inj hmask).symm, by simp⟩

/-- A contract without markers does not meet what masks ask of markers. -/
theorem not_meets_ofMarkers [TextLibrary] {links : Json → String → List Json} {c : Json}
    (markers : List String) (h : c.field? "markers" = none) :
    (Mask.ofMarkers markers).meets links .contract c = false := by
  have hnull : Place.contract.property? c "markers" = some .null := by
    simp [Place.property?, h, ValuePath.columns]
  simp [Mask.ofMarkers, Schema.meets, Schema.propertiesMeet, Schema.fieldsMeet, hnull,
    Keywords.plainMeets, TypeSet.toList, Place.hasType, JsonType.holds]

/-- A mask that hides the markers does not accept what it leaves. -/
theorem Sound.accepts_of_hidden_markers [TextLibrary] (hk : k.Sound)
    (hmask : k.mask session = .ok mask) (hcompiles : mask.Compiles)
    (hhidden : Mask.forbids mask "markers" = true) (c : Contract) :
    k.accepts mask (Mask.redact c.toRow mask) = .ok false := by
  have hmarkers : (Mask.redact c.toRow mask).field? "markers" = none := by
    rw [Mask.field?_redact _ _ (by decide), if_pos hhidden]
  rw [hk.accepts_eq hcompiles]
  rcases mask_asks_markers hmask with rfl | ⟨rest, markers, rfl, hmem⟩
  · rw [Schema.meets]
  · rw [Schema.meets_conj]
    refine congrArg _ (Bool.eq_false_iff.mpr fun hall => ?_)
    have hmeets := List.all_eq_true.mp hall _ hmem
    rw [not_meets_ofMarkers markers hmarkers] at hmeets
    cases hmeets

/-- A patch of tests that hold of what a session sees of a contract is refused
    just where the mask does not accept what it leaves of the contract.  A mask
    that reads only columns it leaves alone refuses no such patch. -/
theorem refused_iff_of_tests [TextLibrary] (hk : Reachable k) (hmask : k.mask session = .ok mask)
    (href : Reference.parse reference = .ok r) (hid : Mask.forbids mask "id" = false)
    (hfull : k.store.find? r.slug r.version = some full)
    (hshows : k.shows mask full = true)
    (htests : ∀ op ∈ operations, op.Confirms (Mask.redact full.toRow mask)) :
    ((∃ e, ((patchFor session reference operations).run k).1 = .error e
        ∧ e.kind = .permissions) ↔ k.Refuses mask full operations)
      ∧ ∀ columns, mask.Reads columns →
        Schema.AgreeOn columns full.toRow (Mask.redact full.toRow mask) →
        ¬k.Refuses mask full operations := by
  have hsound := hk.sound
  have hcompiles := compiles_of_shows hshows
  have hvisible := hsound.visible_of_mem hcompiles (fun _ _ _ => hid)
    (Store.mem_of_find? hfull)
  rw [hshows, if_pos rfl] at hvisible
  constructor
  · rw [patchFor_refused_iff hmask href]
    exact hsound.patched_refused_iff hcompiles hfull hvisible htests
  · intro columns hreads hagree hrefuses
    -- the mask accepts the contract, and reads the same of what is left
    have haccepts := hrefuses.unaccepted
    rw [hsound.accepts_eq hcompiles] at haccepts
    rw [hsound.shows_eq hcompiles, hreads.meets_congr hagree] at hshows
    rw [hshows] at haccepts
    cases haccepts

/-! ## A reader who does not see markers -/

/-- A role that may read what contracts are and hold, but not their markers. -/
def unmarked : Json :=
  .object
    [("additionalProperties", .bool false),
     ("properties", .object
       [("data", .bool true), ("id", .bool true), ("slug", .bool true),
        ("version", .bool true)])]

/-- The schema of the role. -/
def unmarkedSchema : Schema :=
  .node
    { properties := some
        [("data", .bool true), ("id", .bool true), ("slug", .bool true),
         ("version", .bool true)]
      additionalProperties := some (.bool false) }

/-- The mask of the reader. -/
def unmarkedMask : Schema :=
  .conj [.disj [unmarkedSchema], Mask.ofMarkers ["role-reader"]]

theorem reread_unmarked : (reader unmarked).reread = some (reader unmarked) :=
  reread_reader rfl

theorem mask_unmarked : (guarded unmarked).mask "reader" = .ok unmarkedMask :=
  mask_guarded reread_unmarked rfl

theorem compiles_unmarkedMask : unmarkedMask.Compiles :=
  Validator.ofSchema_ok.mp ⟨_, rfl⟩

theorem shows_card_unmarked : (guarded unmarked).shows unmarkedMask card = true := by
  rw [(guarded_reachable unmarked).sound.shows_eq compiles_unmarkedMask]
  rfl

/-- A test of the secret that the reader sees. -/
def testSecret : List PatchOperation := [.test "/data/secret" (.string "kept")]

theorem confirms_testSecret : ∀ op ∈ testSecret,
    op.Confirms (Mask.redact card.toRow unmarkedMask) := by
  intro op hop
  obtain rfl := List.mem_singleton.mp hop
  exact ⟨_, _, ["data", "secret"], .string "kept", rfl, rfl, rfl, rfl⟩

theorem refuses_testSecret :
    (guarded unmarked).Refuses unmarkedMask card testSecret where
  nonempty := nofun
  parts op hop := by
    obtain rfl := List.mem_singleton.mp hop
    decide
  typed := ⟨_, typeSchema_card reread_unmarked⟩
  unaccepted := (guarded_reachable unmarked).sound.accepts_of_hidden_markers
    mask_unmarked compiles_unmarkedMask (by decide) card

/-- The test of the secret is refused to the reader. -/
theorem refused_of_testSecret :
    ∃ e, ((patchFor "reader" "card@1.0.0" testSecret).run (guarded unmarked)).1
      = .error e ∧ e.kind = .permissions := by
  have href : Reference.parse "card@1.0.0" = .ok ⟨"card", .exact Version.initial⟩ :=
    rfl
  have hiff := refused_iff_of_tests (guarded_reachable unmarked) mask_unmarked href
    (by decide) (find?_card reread_unmarked) shows_card_unmarked confirms_testSecret
  exact hiff.1.mpr refuses_testSecret

/-- A reader who sees the card, its id and its secret may not test the
    secret. -/
theorem refuses_test_of_seen_card :
    Reachable (guarded unmarked)
      ∧ (guarded unmarked).mask "reader" = .ok unmarkedMask
      ∧ Mask.forbids unmarkedMask "id" = false
      ∧ (guarded unmarked).store.find? "card" (.exact Version.initial) = some card
      ∧ (guarded unmarked).shows unmarkedMask card = true
      ∧ (∀ op ∈ testSecret, op.Confirms (Mask.redact card.toRow unmarkedMask))
      ∧ ∃ e, ((patchFor "reader" "card@1.0.0" testSecret).run (guarded unmarked)).1
        = .error e ∧ e.kind = .permissions := by
  have hsound := (guarded_reachable unmarked).sound
  have href : Reference.parse "card@1.0.0" = .ok ⟨"card", .exact Version.initial⟩ :=
    rfl
  have hvisible := visible_card reread_unmarked (by decide) shows_card_unmarked
  refine ⟨guarded_reachable _, mask_unmarked, by decide, find?_card reread_unmarked,
    shows_card_unmarked, confirms_testSecret, ?_⟩
  rw [patchFor_refused_iff mask_unmarked href,
    hsound.patched_refused_iff (r := ⟨"card", .exact Version.initial⟩)
      compiles_unmarkedMask (find?_card reread_unmarked) hvisible confirms_testSecret]
  exact refuses_testSecret

end Kernel

end LinkedContracts
