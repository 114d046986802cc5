import LinkedContracts.Proofs.Kernel.Frame
import LinkedContracts.Proofs.Patch.Partial
import LinkedContracts.Proofs.Schema.Columns

/-! # What a patch returns and what it stores

    A patch is applied twice: what the session sees of the contract is returned,
    and the contract itself is read, brought into the form in which contracts
    are kept, and written.  The two do the same to a contract of which the mask
    hides whole properties only.  What is returned is then what is stored, as
    far as contracts can keep it: the version is kept in canonical form, what is
    missing is kept as its default, and properties that contracts do not have
    are not kept. -/

namespace LinkedContracts

/-! ## Equality by value -/

namespace Json

theorem equal_of_equalFields {xs ys : Dict Json} {key : String} {x : Json}
    (h : equalFields Number.eq xs ys = true) (hx : Dict.find? xs key = some x) :
    ∃ y, Dict.find? ys key = some y ∧ x.equal y = true := by
  induction xs with
  | nil => cases hx
  | cons field rest ih =>
      obtain ⟨name, v⟩ := field
      rw [equalFields, Bool.and_eq_true] at h
      rw [Dict.find?_cons] at hx
      split at hx
      next hname =>
        subst hname
        obtain rfl := Option.some.inj hx
        cases hy : Dict.find? ys name with
        | none => simp [hy] at h
        | some y => exact ⟨y, rfl, by simpa [hy, equal] using h.1⟩
      · exact ih h.2 hx

/-- Documents that are equal differ in no property. -/
theorem differAt_of_equal {xs ys : Dict Json} (hxs : xs.Sorted)
    (h : (Json.object xs).equal (.object ys) = true) (key : String) :
    Kernel.differAt xs ys key = false := by
  rw [equal, equalBy, Bool.and_eq_true, beq_iff_eq] at h
  obtain ⟨hlength, hfields⟩ := h
  rw [Kernel.differAt]
  cases hx : Dict.find? xs key with
  | some x =>
      obtain ⟨y, hy, hequal⟩ := equal_of_equalFields hfields hx
      simp [hy, hequal]
  | none =>
      have hkeys := hxs.keys_perm hlength (keys_of_equalFields hfields)
      have hy : Dict.find? ys key = none :=
        Dict.find?_eq_none.mpr fun hkey =>
          Dict.find?_eq_none.mp hx (hkeys.mem_iff.mpr hkey)
      rw [hy]

end Json

/-! ## What contracts keep -/

namespace Contract

variable {field : String → Option Json} {c e full : Contract} {key : String}

/-- What a contract has where a document has nothing. -/
def standIn : String → Option Json
  | "active" => some (.bool true)
  | "capabilities" | "markers" | "requires" | "tags" => some (.array [])
  | "data" => some (.object [])
  | "name" => some .null
  | _ => none

/-- A version in canonical form. -/
def canonicalVersion : Json → Json
  | .string s => .string (((Version.parse? s).map Version.text).getD s)
  | other => other

/-- What a contract keeps of a property that it was given. -/
def keeps (key : String) (given : Option Json) : Option Json :=
  if key = "version" then given.map canonicalVersion
  else if key ∈ exactColumns ∨ key ∈ ["created_at", "linked_at"] then
    given.or (standIn key)
  else none

/-- A column that was read has what it was read from, or the default. -/
theorem ReadFrom.column_eq (h : ReadFrom field c) (hkey : key ∈ exactColumns) :
    Dict.find? c.rowFields key = (field key).or (standIn key) := by
  cases hfield : field key with
  | some j => rw [h.find?_rowFields hkey hfield, Option.some_or]
  | none =>
      simp only [exactColumns, List.mem_cons, List.not_mem_nil, or_false] at hkey
      rcases hkey with rfl | rfl | rfl | rfl | rfl | rfl | rfl | rfl | rfl | rfl | rfl
      · exact congrArg (fun b => some (Json.bool b))
          (by simpa [hfield, defaulted] using h.active.symm)
      · exact congrArg (fun items => some (Json.array items))
          (by simpa [hfield, defaulted] using h.capabilities.symm)
      · exact congrArg some (by simpa [hfield] using h.data.symm)
      · exact absurd h.id (by simp [hfield, required])
      · exact congrArg (fun items => some (Json.ofStrings items))
          (by simpa [hfield, defaulted] using h.markers.symm)
      · exact congrArg (fun name => some (optional Json.string name))
          (by simpa [hfield, defaulted] using h.name.symm)
      · exact congrArg (fun items => some (Json.array items))
          (by simpa [hfield, defaulted] using h.requires.symm)
      · exact absurd h.slug (by simp [hfield, required])
      · exact congrArg (fun items => some (Json.ofStrings items))
          (by simpa [hfield, defaulted] using h.tags.symm)
      · exact absurd h.type (by simp [hfield, required])
      · exact absurd h.version (by simp [hfield, required])

/-- What is written in the place of a contract has of a contract that was read
    what contracts keep. -/
theorem ReadFrom.column_replacing (h : ReadFrom field c)
    (hcanonical : Store.canonical c = .ok e) (now : Instant)
    (hkey : key ∈ exactColumns) (hid : key ≠ "id") :
    Dict.find? (Store.replacing now e full).rowFields key
      = keeps key (field key) := by
  obtain ⟨-, -, v, hv, rfl⟩ := Store.canonical_ok hcanonical
  by_cases hversion : key = "version"
  · subst hversion
    have hstring : field "version" = some (.string c.version) := by
      have hread := h.version
      cases hfield : field "version" with
      | none => simp [hfield, required] at hread
      | some j =>
          rw [hfield] at hread
          rw [exact_string j _ hread]
    have hkept : keeps "version" (some (.string c.version)) = some (.string v.text) := by
      simp [keeps, canonicalVersion, hv]
    rw [hstring, hkept]
    rfl
  · rw [Store.find?_replacing now c full _ hkey hid hversion, h.column_eq hkey, keeps,
      if_neg hversion, if_pos (.inl hkey)]

end Contract

namespace Mask

variable {mask : Schema} {key : String}

/-- Whether a mask hides whole properties of a contract, and nothing of those it
    leaves. -/
def Spares (mask : Schema) (c : Json) : Prop :=
  ∀ key v, c.field? key = some v → forbids mask key = false →
    redactValue v (property mask key) = v

/-- What a session sees of a property that was given to a contract. -/
def sees (mask : Schema) (key : String) (given : Option Json) : Option Json :=
  if forbids mask key then none
  else (Contract.keeps key given).map (redactValue · (property mask key))

/-- What is seen of a contract is part of its document. -/
theorem partOf_redact (c : Contract) (h : Spares mask c.toRow) :
    PartOf (fun key => forbids mask key = true ∨ key = "links")
      (redactRow c.rowFields mask)
      (Dict.insert c.rowFields "links" (Contract.linksJson c.links)) where
  part_sorted := sorted_redactRow c.sorted_rowFields mask
  whole_sorted := c.sorted_rowFields.insert _ _
  agree key := by
    by_cases hlinks : key = "links"
    · subst hlinks
      right
      rw [find?_redactRow_links]
      exact ⟨.inr rfl, rfl⟩
    rw [find?_redactRow _ _ hlinks, Dict.find?_insert_of_ne _ _ (Ne.symm hlinks)]
    cases hforbids : forbids mask key with
    | true => exact .inr ⟨.inl rfl, rfl⟩
    | false =>
        left
        cases hv : Dict.find? c.rowFields key with
        | none => rfl
        | some v => simp [h key v hv hforbids]

end Mask

namespace Kernel

variable {k : Kernel} {session reference : String} {mask : Schema} {r : Reference}
  {operations : List PatchOperation} {full : Contract} {p : Patched} {view : Json}

/-! ## The two applications of a patch -/

/-- What a patch that does something makes of the contract, and when it writes
    what it made. -/
structure Makes [TextLibrary] (k : Kernel) (mask : Schema) (operations : List PatchOperation)
    (full : Contract) (p : Patched) (image : Json) : Prop where
  views : ∃ view, k.visible mask full.id = .ok (some view)
    ∧ k.Views mask operations view p.view
  apply : Patch.apply full.toJson operations = .ok image
  read : ∀ c, p.contract = some c → readPatched image = .ok c
  unchanged : p.contract = none → image.equal full.toJson = true

theorem Sound.makes_of_patched [TextLibrary] (hk : k.Sound)
    (hfull : k.store.find? r.slug r.version = some full) (hne : operations ≠ [])
    (hp : k.patched mask reference r operations = .ok p) :
    ∃ image, k.Makes mask operations full p image := by
  obtain ⟨full', view, hworks⟩ := hk.works_of_patched hp
  obtain rfl := Option.some.inj (hfull.symm.trans hworks.named)
  have hid := hk.store.contract?_eq_some.mpr ⟨Store.mem_of_find? hfull, rfl⟩
  rw [patched_cons hfull hid hworks.visible hne] at hp
  obtain ⟨schema, -, hp⟩ := except_bind_ok hp
  obtain ⟨patchedView, hview, hp⟩ := except_bind_ok hp
  obtain ⟨image, happly, hp⟩ := except_bind_ok hp
  obtain ⟨_, -, hp⟩ := except_bind_ok hp
  have hviews := views_of_patchView hview
  split at hp
  next hequal =>
    obtain rfl := Except.ok.inj hp
    exact ⟨image, ⟨view, hworks.visible, hviews⟩, happly, nofun, fun _ => hequal⟩
  next =>
    obtain ⟨c, hread, hp⟩ := except_bind_ok hp
    obtain rfl := Except.ok.inj hp
    refine ⟨image, ⟨view, hworks.visible, hviews⟩, happly, ?_, nofun⟩
    rintro c' ⟨⟩
    exact hread

/-- What a session sees after a patch is the patched contract without what the
    mask forbids. -/
structure Aligned (mask : Schema) (view image : Json) (seen whole : Dict Json) :
    Prop where
  view_eq : view = .object seen
  image_eq : image = .object whole
  sorted : whole.Sorted
  hidden : ∀ key, Mask.forbids mask key = true ∨ key = "links" →
    Dict.find? seen key = none
  agree : ∀ key, Mask.forbids mask key = false → key ≠ "links" →
    Dict.find? seen key = Dict.find? whole key

theorem Makes.aligned [TextLibrary] (hk : k.Sound) (hfull : full ∈ k.store.contracts)
    (hasked : Mask.forbids mask "id" = false) (hspares : Mask.Spares mask full.toRow)
    {image : Json} (h : k.Makes mask operations full p image) :
    ∃ seen whole, Aligned mask p.view image seen whole := by
  obtain ⟨view, hvisible, hviews⟩ := h.views
  rw [hk.visible_of_mem (compiles_of_visible hvisible) (fun _ _ _ => hasked) hfull]
    at hvisible
  split at hvisible
  next =>
    obtain rfl := Option.some.inj (Except.ok.inj hvisible)
    obtain ⟨seen, whole, hseen, hwhole, hpart⟩ :=
      Patch.apply_whole (Mask.partOf_redact full hspares) hviews.apply
    have hlinks : Dict.find? seen "links" = none := by
      have hsame : p.view.part? ["links"]
          = (Mask.redact full.toRow mask).part? ["links"] :=
        Patch.part?_steps hviews.apply fun op _ =>
          PatchOperation.not_touches_immutable (by decide)
      rw [hseen, Json.part?_singleton, Contract.toRow, Mask.redact,
        Json.part?_singleton, Mask.find?_redactRow_links] at hsame
      exact hsame
    refine ⟨seen, whole, hseen, Except.ok.inj (h.apply.symm.trans hwhole),
      hpart.whole_sorted, fun key hkey => ?_, fun key hforbids hkey => ?_⟩
    · by_cases hkey' : key = "links"
      · rw [hkey', hlinks]
      · have hforbids := hkey.resolve_right hkey'
        have hallowed := hviews.allowed
        rw [hseen] at hallowed
        exact absent_of_allowed hallowed hforbids
          (by rw [Mask.find?_redactRow _ _ hkey', if_pos hforbids])
    · refine (hpart.agree key).resolve_right ?_
      rintro ⟨hforbids' | hlinks', -⟩
      · rw [hforbids] at hforbids'
        cases hforbids'
      · exact hkey hlinks'
  next => cases hvisible

/-- Where nothing is written, what is returned differs in no property from what
    the session sees of the contract. -/
theorem Aligned.differAt_redact {image : Json} {seen whole : Dict Json}
    (h : Aligned mask view image seen whole) (hspares : Mask.Spares mask full.toRow)
    (hequal : image.equal full.toJson = true) (key : String) :
    differAt seen (Mask.redactRow full.rowFields mask) key = false := by
  by_cases hlinks : key = "links"
  · subst hlinks
    rw [differAt, h.hidden _ (.inr rfl), Mask.find?_redactRow_links]
    rfl
  cases hforbids : Mask.forbids mask key with
  | true =>
      simp [differAt, h.hidden _ (.inl hforbids), Mask.find?_redactRow _ _ hlinks,
        hforbids]
  | false =>
      have hredacted : Dict.find? (Mask.redactRow full.rowFields mask) key
          = Dict.find? (Dict.insert full.rowFields "links"
            (Contract.linksJson full.links)) key := by
        rw [Mask.find?_redactRow _ _ hlinks, hforbids,
          Dict.find?_insert_of_ne _ _ (Ne.symm hlinks)]
        cases hv : Dict.find? full.rowFields key with
        | none => rfl
        | some v => simp [hspares key v hv hforbids]
      rw [h.image_eq] at hequal
      rw [differAt, h.agree key hforbids hlinks, hredacted]
      exact Json.differAt_of_equal h.sorted hequal key

/-! ## What is stored -/

/-- Whether what a patch leaves of a contract is what it wrote in the place of
    the contract, for the session to see with the mask it has. -/
structure Lands [TextLibrary] (k : Kernel) (session : String) (mask : Schema) (reference : String)
    (r : Reference) (operations : List PatchOperation) (full : Contract) : Prop where
  /-- The session keeps its mask. -/
  masked : ((patchFor session reference operations).run k).2.mask session = .ok mask
  /-- The patch takes the slug and version of no other contract. -/
  alone : ∀ d ∈ k.store.contracts, ∀ e,
    k.Takes mask reference r operations d e → d = full
  /-- The patched contract is no link to itself. -/
  unlinked : ¬Relinks k mask reference r operations full.id
  /-- What is kept is read back as it was written. -/
  readable : ∀ row, Dict.find?
      ((patchFor session reference operations).run k).2.store.rows full.id = some row →
    ∃ c, row.contents = some c ∧ c.toRow = row.written.toRow

/-- A patched contract that lands is kept in its place. -/
theorem Succeeds.row_written [TextLibrary] (hk : k.Sound) {c : Contract} {after : Store}
    (h : k.Succeeds mask reference r operations p after)
    (hfull : k.store.find? r.slug r.version = some full) (hc : p.contract = some c)
    (halone : ∀ d ∈ k.store.contracts, ∀ e,
      k.Takes mask reference r operations d e → d = full)
    (hunlinked : ¬Relinks k mask reference r operations full.id) :
    ∃ e store, Store.canonical c = .ok e
      ∧ k.store.write k.supply.now .upsert c
        = .ok (Store.replacing k.supply.now e full, store)
      ∧ Dict.find? after.rows full.id
        = some (.ofContract (Store.replacing k.supply.now e full)) := by
  obtain ⟨written, store, hwrite, hsame⟩ := h.written c hc
  obtain ⟨full', view, hworks⟩ := hk.works_of_patched h.patched
  obtain rfl := Option.some.inj (hfull.symm.trans hworks.named)
  obtain ⟨e, found, he, hfound, rfl, hover⟩ := hworks.written_over hk hc hwrite
  have hfull' : found = full := hover.elim id fun ⟨hslug, hversion⟩ =>
    halone found hfound e ⟨p, c, h.patched, hc, he, hslug, hversion⟩
  subst hfull'
  refine ⟨e, store, he, hwrite, ?_⟩
  rw [hsame.1]
  exact hk.store.find?_written hwrite fun hlinks =>
    hunlinked ⟨p, c, _, store, h.patched, hc, hwrite, hlinks⟩

/-- A column of the written contract is what contracts keep of the property of
    the patched contract. -/
theorem Works.column_written [TextLibrary] (hk : k.Sound) {seen whole : Dict Json} {c e : Contract}
    {image : Json} {store : Store} {key : String}
    (h : k.Works mask r operations full view p) (hc : p.contract = some c)
    (hmakes : k.Makes mask operations full p image)
    (haligned : Aligned mask p.view image seen whole)
    (he : Store.canonical c = .ok e)
    (hwrite : k.store.write k.supply.now .upsert c
      = .ok (Store.replacing k.supply.now e full, store))
    (hkey : key ≠ "updated_at") :
    Dict.find? (Store.replacing k.supply.now e full).rowFields key
      = Contract.keeps key (Dict.find? whole key) := by
  have hread := hmakes.read c hc
  have happly := hmakes.apply
  rw [haligned.image_eq] at hread happly
  have hreads := Contract.readFrom_of_ofFields (ofJson?_of_readPatched hread)
  -- what patches do not change is written as it was read
  have immutable {key : String} {v : Json}
      (hcolumn : key ∈ ["created_at", "id", "linked_at"])
      (hv : full.toRow.part? [key] = some v) :
      Dict.find? (Store.replacing k.supply.now e full).rowFields key
        = Contract.keeps key (Dict.find? whole key) := by
    have hplain : key ∈ Patch.immutable ∧ key ≠ "updated_at" ∧ key ≠ "links"
        ∧ Contract.keeps key (some v) = some v := by
      simp only [List.mem_cons, List.not_mem_nil, or_false] at hcolumn
      rcases hcolumn with rfl | rfl | rfl
      · exact ⟨by decide, by decide, by decide, rfl⟩
      · exact ⟨by decide, by decide, by decide, rfl⟩
      · exact ⟨by decide, by decide, by decide, rfl⟩
    obtain ⟨hcolumn, htime, hlinks, hkeeps⟩ := hplain
    have huntouched (op : PatchOperation) (_ : op ∈ operations) : ¬op.Touches [key] :=
      PatchOperation.not_touches_immutable hcolumn
    have hwhole := Patch.part?_steps happly huntouched
    rw [Json.part?_singleton, part?_toJson hlinks, hv] at hwhole
    have hwritten := h.part?_written hk hc hwrite rfl hv htime huntouched
    rw [Contract.toRow, Json.part?_singleton] at hwritten
    rw [hwritten, hwhole, hkeeps]
  by_cases hid : key = "id"
  · subst hid
    exact immutable (by decide) rfl
  by_cases hexact : key ∈ Contract.exactColumns
  · exact hreads.column_replacing he k.supply.now hexact hid
  by_cases htimes : key ∈ ["created_at", "linked_at"]
  · simp only [List.mem_cons, List.not_mem_nil, or_false] at htimes
    rcases htimes with rfl | rfl
    · exact immutable (by decide) rfl
    · exact immutable (by decide) rfl
  -- no other property is a column
  have hcolumns : ∀ name ∈ (Store.replacing k.supply.now e full).rowFields.map (·.1),
      name ∈ Contract.exactColumns ∨ name ∈ ["created_at", "linked_at"]
        ∨ name = "updated_at" := by
    simp [Contract.rowFields, Contract.exactColumns]
  have hversion : key ≠ "version" := by
    rintro rfl
    exact hexact (by decide)
  rw [Contract.keeps, if_neg hversion, if_neg (not_or.mpr ⟨hexact, htimes⟩)]
  refine Dict.find?_eq_none.mpr fun hmem => ?_
  rcases hcolumns key hmem with h | h | h
  · exact hexact h
  · exact htimes h
  · exact hkey h

/-- Where the columns of a contract are what contracts keep of a patched one, what
    a session sees of it is kept of what was returned. -/
theorem Aligned.field?_redact {image : Json} {seen whole : Dict Json} {c : Contract}
    (h : Aligned mask view image seen whole)
    (hcolumns : ∀ key, key ≠ "updated_at" →
      Dict.find? c.rowFields key = Contract.keeps key (Dict.find? whole key))
    (key : String) (hkey : key ≠ "updated_at") :
    (Mask.redact c.toRow mask).field? key
      = Mask.sees mask key ((Json.object seen).field? key) := by
  have hfield : (Json.object seen).field? key = Dict.find? seen key := rfl
  rw [hfield]
  by_cases hlinks : key = "links"
  · subst hlinks
    rw [Mask.field?_redact_links, h.hidden _ (.inr rfl), Mask.sees]
    split <;> rfl
  rw [Mask.field?_redact _ _ hlinks, Mask.sees]
  split
  · rfl
  next hforbids =>
    rw [h.agree key (by simpa using hforbids) hlinks, ← hcolumns key hkey]
    rfl

theorem Sound.getById_of_mem [TextLibrary] (hk : k.Sound) (hmask : k.mask session = .ok mask)
    (hcompiles : mask.Compiles) (hasked : Mask.forbids mask "id" = false) {c : Contract}
    (hc : c ∈ k.store.contracts) :
    k.getById session c.id
      = .ok (if k.shows mask c then some (Mask.redact c.toRow mask) else none) := by
  have hid := (hk.store.kept_of_mem hc).id
  rw [getById, if_neg (by simp [hid]), hmask]
  exact hk.visible_of_mem hcompiles (fun _ _ _ => hasked) hc

theorem Sound.shows_of_same [TextLibrary] {l : Kernel} (hk : k.Sound) (hl : l.Sound)
    (hsame : SameContents l.store k.store) (hcompiles : mask.Compiles) (c : Contract) :
    l.shows mask c = k.shows mask c := by
  have hlinked : l.store.rowsLinked = k.store.rowsLinked := by
    funext parent name
    simp only [Store.rowsLinked, Store.linked, Store.linkedRows, hsame.1, hsame.2]
  rw [hl.shows_eq hcompiles, hlinked, ← hk.shows_eq hcompiles]

/-- What a patch returns is what is stored, as far as contracts keep it: each
    property that the session sees of the stored contract is kept of what was
    returned, but for the time of the update.  Where the patch changes nothing,
    nothing is stored and what was returned differs from it in no property. -/
theorem stored_of_patch [TextLibrary] (hk : Reachable k) (hmask : k.mask session = .ok mask)
    (href : Reference.parse reference = .ok r) (hasked : Mask.forbids mask "id" = false)
    (hfull : k.store.find? r.slug r.version = some full) (hne : operations ≠ [])
    (hspares : Mask.Spares mask full.toRow)
    (hlands : k.Lands session mask reference r operations full)
    (hresult : ((patchFor session reference operations).run k).1 = .ok view) :
    let after := ((patchFor session reference operations).run k).2
    ∃ stored, after.store.contract? full.id = some stored
      ∧ after.getById session full.id
        = .ok (if after.shows mask stored then some (Mask.redact stored.toRow mask)
            else none)
      ∧ (stored = full ∧ after.shows mask stored = true
          ∧ (∃ fields, view = .object fields
            ∧ ∀ key, differAt fields (Mask.redactRow full.rowFields mask) key = false)
        ∨ (∀ key, key ≠ "updated_at" →
            (Mask.redact stored.toRow mask).field? key
              = Mask.sees mask key (view.field? key))
          ∧ ∀ columns, mask.Reads columns →
            Schema.AgreeOn columns view stored.toRow →
            after.shows mask stored = true) := by
  intro after
  have hsound := hk.sound
  have hafter : after.Sound :=
    (Reachable.ran (.patch session reference operations) hk).sound
  have hmem := Store.mem_of_find? hfull
  obtain ⟨p, rfl, hsucceeds⟩ := patchFor_ok hmask href hresult
  obtain ⟨image, hmakes⟩ := hsound.makes_of_patched hfull hne hsucceeds.patched
  obtain ⟨seen, whole, haligned⟩ := hmakes.aligned hsound hmem hasked hspares
  obtain ⟨before, hvisible, hviews⟩ := hmakes.views
  have hcompiles := compiles_of_visible hvisible
  cases hc : p.contract with
  | none =>
      have hsame := hsucceeds.unwritten hc
      have hmem' : full ∈ after.store.contracts := by
        rwa [Store.contracts, hsame.1]
      have hshows : after.shows mask full = true := by
        rw [hsound.shows_of_same hafter hsame hcompiles]
        rw [hsound.visible_of_mem hcompiles (fun _ _ _ => hasked) hmem] at hvisible
        split at hvisible
        next hshows => exact hshows
        next => cases hvisible
      exact ⟨full, hafter.store.contract?_eq_some.mpr ⟨hmem', rfl⟩,
        hafter.getById_of_mem hlands.masked hcompiles hasked hmem',
        .inl ⟨rfl, hshows, seen, haligned.view_eq,
          haligned.differAt_redact hspares (hmakes.unchanged hc)⟩⟩
  | some c =>
      obtain ⟨e, store, he, hwrite, hrow⟩ := hsucceeds.row_written hsound hfull hc
        hlands.alone hlands.unlinked
      obtain ⟨stored, hcontents, htoRow⟩ := hlands.readable _ hrow
      rw [StoredRow.written_ofContract] at htoRow
      have hstored : after.store.contract? full.id = some stored := by
        rw [Store.contract?, hrow, Option.bind_some, hcontents]
      obtain ⟨hmem', hid⟩ := hafter.store.contract?_eq_some.mp hstored
      obtain ⟨full', view, hworks⟩ := hsound.works_of_patched hsucceeds.patched
      obtain rfl := Option.some.inj (hfull.symm.trans hworks.named)
      refine ⟨stored, hstored, ?_, .inr ⟨?_, fun columns hreads hagree => ?_⟩⟩
      · rw [← hid]
        exact hafter.getById_of_mem hlands.masked hcompiles hasked hmem'
      · rw [htoRow, haligned.view_eq]
        exact haligned.field?_redact fun key hkey =>
          hworks.column_written hsound hc hmakes haligned he hwrite hkey
      · have haccepted := hviews.accepted
        rw [hsound.accepts_eq hcompiles] at haccepted
        rw [hafter.shows_eq hcompiles, ← Except.ok.inj haccepted]
        exact (hreads.meets_congr hagree).symm

/-! ## A reader who sees all of the card -/

/-- A role that may read everything. -/
def candid : Json := .bool true

/-- The mask of the reader. -/
def candidMask : Schema := .conj [.disj [.bool true], Mask.ofMarkers ["role-reader"]]

theorem reread_candid : (reader candid).reread = some (reader candid) :=
  reread_reader rfl

theorem mask_candid : (guarded candid).mask "reader" = .ok candidMask :=
  mask_guarded reread_candid rfl

theorem compiles_candidMask : candidMask.Compiles :=
  Validator.ofSchema_ok.mp ⟨_, rfl⟩

theorem forbids_candidMask (key : String) : Mask.forbids candidMask key = false := by
  by_cases hkey : key = "markers"
  · subst hkey
    decide
  · simp [candidMask, Schema.conj, Schema.disj, Mask.ofMarkers, Mask.forbids,
      Mask.ownPart, Mask.anyForbids, Mask.allForbid, Mask.someForbids,
      Mask.everyForbids, Dict.find?, Ne.symm hkey]

theorem reads_candidMask : candidMask.Reads ["markers"] := by
  have hmarkers : (Mask.ofMarkers ["role-reader"]).Reads ["markers"] :=
    .node _ rfl rfl rfl rfl (by simp) nofun nofun nofun
  refine .conj (List.forall_mem_cons.mpr ⟨.disj ?_, by simpa using hmarkers⟩)
  simpa using Schema.Reads.bool true

/-- The reader sees a contract with no markers as it is. -/
theorem spares_card : Mask.Spares candidMask card.toRow := by
  have hrow : ∀ p ∈ card.rowFields,
      Mask.redactValue p.2 (Mask.property candidMask p.1) = p.2 := by
    simp only [Contract.rowFields, List.forall_mem_cons]
    exact ⟨rfl, rfl, rfl, rfl, rfl, rfl, rfl, rfl, rfl, rfl, rfl, rfl, rfl, rfl,
      List.forall_mem_nil _⟩
  intro key v hv _
  exact hrow _ (Dict.mem_of_find? hv)

theorem visible_card_candid :
    (guarded candid).visible candidMask "card"
      = .ok (some (Mask.redact card.toRow candidMask)) := by
  refine visible_card reread_candid (forbids_candidMask _) ?_
  rw [(guarded_reachable candid).sound.shows_eq compiles_candidMask]
  rfl

theorem only_card_named : ∀ d ∈ (guarded candid).store.contracts,
    d.slug = "card" → d = card :=
  forall_mem_guarded reread_candid (fun _ => rfl) fun h => absurd h (by decide)

/-- What a patch of the card leaves in the store of the reader. -/
structure Leaves [TextLibrary] (operations : List PatchOperation) (returned : Json) (d : Contract) :
    Prop where
  result : ((patchFor "reader" "card@1.0.0" operations).run (guarded candid)).1
    = .ok returned
  rows : ((patchFor "reader" "card@1.0.0" operations).run (guarded candid)).2.store.rows
    = [("card", .ofContract d), ("reader", .ofContract (reader candid))]
  masked : ((patchFor "reader" "card@1.0.0" operations).run (guarded candid)).2.mask
    "reader" = .ok candidMask

theorem leaves_of_views {returned : Json} {c e : Contract}
    (hviews : (guarded candid).Views candidMask operations
      (Mask.redact card.toRow candidMask) returned)
    (halters : Alters operations c e) (hid : e.id = "card")
    (hslug : e.slug = "card") (htype : e.type = "card@1.0.0") :
    Leaves operations returned (Store.replacing ⟨2, 0⟩ e card) := by
  have hsound := (guarded_reachable candid).sound
  have hcard := card_mem_guarded reread_candid
  have hold : (guarded candid).store.existing? e = some card := by
    refine hsound.store.existing?_eq_some.mpr ⟨hcard, ?_⟩
    cases hfound : (guarded candid).store.versioned? e.slug e.version with
    | none => exact .inr ⟨rfl, hid.symm⟩
    | some d =>
        -- only the card has its slug
        obtain ⟨hd, hslug', hversion⟩ := hsound.store.versioned?_eq_some.mp hfound
        obtain rfl : d = card := only_card_named d hd (hslug'.trans hslug)
        exact .inl ⟨hslug', hversion⟩
  obtain ⟨store, hleft, hrows, hedges⟩ := patch_left reread_candid mask_candid
    visible_card_candid hviews halters hold (ofContract?_of_card htype)
  have hput : ((guarded candid).store.put (Store.replacing ⟨2, 0⟩ e card)).rows
      = [("card", .ofContract (Store.replacing ⟨2, 0⟩ e card)),
        ("reader", .ofContract (reader candid))] := by
    simp [Store.put, rows_guarded, Store.replacing, card, hslug, Dict.insert]
  have hrows' := hleft.2.1.trans (hrows.trans hput)
  refine ⟨hleft.1, hrows', mask_of_rows [("card", .ofContract _)]
    reread_candid hrows' ?_ (hleft.2.2.trans hedges) rfl⟩
  intro p hp
  obtain rfl := List.mem_singleton.mp hp
  exact ⟨by simp, hslug⟩

theorem views_rename_candid :
    (guarded candid).Views candidMask rename (Mask.redact card.toRow candidMask)
      (Mask.redact renamed.toRow candidMask) :=
  (guarded_reachable candid).sound.views_of_meets compiles_candidMask (by decide +kernel)
    (by decide +kernel) (by decide +kernel)

/-- A patch of the name leaves the card by its new name. -/
theorem leaves_rename :
    Leaves rename (Mask.redact renamed.toRow candidMask)
      (Store.replacing ⟨2, 0⟩ renamed card) :=
  leaves_of_views views_rename_candid alters_rename rfl rfl rfl

theorem patched_rename_candid :
    (guarded candid).patched candidMask "card@1.0.0"
        ⟨"card", .exact Version.initial⟩ rename
      = .ok ⟨Mask.redact renamed.toRow candidMask, some renamed⟩ :=
  patched_card reread_candid visible_card_candid views_rename_candid alters_rename

theorem lands_rename :
    (guarded candid).Lands "reader" candidMask "card@1.0.0"
      ⟨"card", .exact Version.initial⟩ rename card where
  masked := leaves_rename.masked
  alone := by
    rintro d hd e ⟨p, c, hp, hc, he, hslug, -⟩
    obtain rfl := Except.ok.inj (patched_rename_candid.symm.trans hp)
    obtain rfl := Option.some.inj hc
    obtain rfl : renamed = e := Except.ok.inj he
    exact only_card_named d hd hslug
  unlinked := by
    rintro ⟨p, c, written, store, hp, hc, hwrite, hlinks⟩
    obtain rfl := Except.ok.inj (patched_rename_candid.symm.trans hp)
    obtain rfl := Option.some.inj hc
    exact not_links_of_card (Store.type_written hwrite) _ hlinks
  readable := by
    intro row hrow
    rw [leaves_rename.rows] at hrow
    obtain rfl := Option.some.inj hrow
    refine ⟨_, ?_, rfl⟩
    rw [StoredRow.contents_ofContract]
    exact Contract.reread_eq rfl rfl rfl parse?_start rfl rfl parse?_next

/-- After the card was renamed the reader sees it by its new name. -/
theorem stored_of_patch_rename :
    ∃ seen, ((patchFor "reader" "card@1.0.0" rename).run (guarded candid)).2.getById
        "reader" "card" = .ok (some seen)
      ∧ seen.field? "name" = some (.string "Renamed") := by
  have href : Reference.parse "card@1.0.0" = .ok ⟨"card", .exact Version.initial⟩ :=
    rfl
  obtain ⟨stored, -, hget, ⟨-, -, fields, hfields, hdiffer⟩ | ⟨hsees, hshows⟩⟩ :=
    stored_of_patch (guarded_reachable candid) mask_candid href (forbids_candidMask _)
      (find?_card reread_candid) (List.cons_ne_nil _ _) spares_card lands_rename
      leaves_rename.result
  · -- the name of the card changed
    obtain rfl := Json.object.inj hfields
    exact absurd (hdiffer "name") (by decide)
  · have hmarkers := hsees "markers" (by decide)
    rw [Mask.field?_redact _ _ (by decide), forbids_candidMask] at hmarkers
    have hagree : Schema.AgreeOn ["markers"] (Mask.redact renamed.toRow candidMask)
        stored.toRow := by
      intro key hkey
      obtain rfl := List.mem_singleton.mp hkey
      exact congrArg (·.getD .null) hmarkers.symm
    rw [hshows _ reads_candidMask hagree, if_pos rfl] at hget
    exact ⟨_, hget, hsees "name" (by decide)⟩

/-- The patch that numbers the card anew, by one number. -/
def renumber : List PatchOperation := [.replace "/version" (.string "2")]

/-- The card with that number. -/
def renumbered : Contract := { card with version := "2" }

theorem alters_renumber :
    Alters renumber renumbered { card with version := "2.0.0" } :=
  ⟨rfl, by decide +kernel, by decide +kernel, by decide +kernel, ⟨rfl, rfl⟩, ⟨rfl, rfl⟩,
    by decide +kernel⟩

theorem views_renumber_candid :
    (guarded candid).Views candidMask renumber (Mask.redact card.toRow candidMask)
      (Mask.redact renumbered.toRow candidMask) :=
  (guarded_reachable candid).sound.views_of_meets compiles_candidMask (by decide +kernel)
    (by decide +kernel) (by decide +kernel)

/-- A patch of the version leaves the card with its version in canonical form. -/
theorem leaves_renumber :
    Leaves renumber (Mask.redact renumbered.toRow candidMask)
      (Store.replacing ⟨2, 0⟩ { card with version := "2.0.0" } card) :=
  leaves_of_views views_renumber_candid alters_renumber rfl rfl rfl

/-- A patch of the version returns the version as it was given, while the reader
    sees it in canonical form. -/
theorem returns_version_as_given :
    Reachable (guarded candid)
      ∧ (guarded candid).mask "reader" = .ok candidMask
      ∧ Mask.forbids candidMask "id" = false
      ∧ (guarded candid).store.find? "card" (.exact Version.initial) = some card
      ∧ renumber ≠ []
      ∧ ∃ returned seen,
        ((patchFor "reader" "card@1.0.0" renumber).run (guarded candid)).1 = .ok returned
          ∧ ((patchFor "reader" "card@1.0.0" renumber).run (guarded candid)).2.getById
            "reader" "card" = .ok (some seen)
          ∧ returned.field? "version" = some (.string "2")
          ∧ seen.field? "version" = some (.string "2.0.0") := by
  have hafter := (Reachable.ran (.patch "reader" "card@1.0.0" renumber)
    (guarded_reachable candid)).sound
  have hreread : (Store.replacing ⟨2, 0⟩ { card with version := "2.0.0" } card).reread
      = some (Store.replacing ⟨2, 0⟩ { card with version := "2.0.0" } card) :=
    Contract.reread_eq rfl rfl rfl parse?_start rfl rfl parse?_next
  have hmem : Store.replacing ⟨2, 0⟩ { card with version := "2.0.0" } card
      ∈ ((patchFor "reader" "card@1.0.0" renumber).run
        (guarded candid)).2.store.contracts := by
    rw [Store.contracts, leaves_renumber.rows]
    simp [hreread]
  have hget := hafter.getById_of_mem leaves_renumber.masked compiles_candidMask
    (forbids_candidMask _) hmem
  rw [hafter.shows_eq compiles_candidMask] at hget
  exact ⟨guarded_reachable _, mask_candid, forbids_candidMask _, find?_card reread_candid,
    List.cons_ne_nil _ _, _, _, leaves_renumber.result, hget, rfl, rfl⟩

end Kernel

end LinkedContracts
