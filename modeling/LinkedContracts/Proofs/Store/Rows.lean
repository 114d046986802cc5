import LinkedContracts.Proofs.Store.Identity

/-! # What a write does to the rows of a store

    After a write there is a row under every id that had one: the same row,
    that of the written contract if it was written under the id, or one with
    a new stamp if the written contract is a link to it.  Only a row that
    cannot be read and has the slug and version of the written contract is
    lost. -/

namespace LinkedContracts

namespace Store

variable {s t u : Store} {c d written : Contract} {id : String}

/-- Whether a contract is an active link with a given end. -/
def Links (c : Contract) (id : String) : Prop :=
  ∃ l, Link.ofContract? c = some l ∧ l.active = true
    ∧ (l.fromId = id ∨ l.toId = id)

/-- The row of a stored contract after something was written. -/
structure RowAfter (s t : Store) (written d : Contract) (row : StoredRow) :
    Prop where
  found : Dict.find? t.rows d.id = some row
  cases : Dict.find? s.rows d.id = some row
    ∨ written.id = d.id ∧ row = .ofContract written
    ∨ Links written d.id
      ∧ ∃ linkedAt, row = .ofContract { d with linkedAt := linkedAt }

/-- What becomes of the row under an id when a contract is written. -/
inductive Fate (s : Store) (rows : Dict StoredRow) (written : Contract)
    (id : String) : Prop where
  | kept (hid : written.id ≠ id) (h : Dict.find? rows id = Dict.find? s.rows id)
  | written (hid : written.id = id)
      (h : Dict.find? rows id = some (.ofContract written))
  | stamped (d : Contract) (linkedAt : Dict Instant) (hd : d ∈ s.contracts)
      (hid : d.id = id) (hlinks : Links written id)
      (h : Dict.find? rows id = some (.ofContract { d with linkedAt := linkedAt }))
  /-- It could not be read, and the written contract has its slug and
      version. -/
  | lost (row : StoredRow) (hid : written.id ≠ id)
      (hrow : Dict.find? s.rows id = some row)
      (hunread : row.contents = none) (hslug : row.written.slug = written.slug)
      (hversion : row.written.version = written.version)
      (h : Dict.find? rows id = none)

/-! ## Putting -/

theorem sorted_put (hs : Dict.Sorted s.rows) (c : Contract) :
    Dict.Sorted (s.put c).rows :=
  (sorted_left hs c).insert c.id _

theorem find?_put_self (s : Store) (c : Contract) :
    Dict.find? (s.put c).rows c.id = some (.ofContract c) :=
  Dict.find?_insert_self _ _ _

/-- Under the other ids is what was there, but for what has the slug and
    version of the contract. -/
theorem find?_put_of_ne (hs : Dict.Sorted s.rows) (hid : id ≠ c.id) :
    Dict.find? (s.put c).rows id
      = (Dict.find? s.rows id).filter fun row =>
        !(row.written.slug == c.slug && row.written.version == c.version) := by
  show Dict.find? (Dict.insert _ c.id _) id = _
  rw [Dict.find?_insert_of_ne _ _ (Ne.symm hid), Dict.Sorted.find?_filter hs]
  have hne : (id == c.id) = false := by simp [hid]
  simp only [hne, Bool.false_or]

theorem find?_put_keeps (hs : Dict.Sorted s.rows) {row : StoredRow}
    (hrow : Dict.find? s.rows id = some row) (hid : id ≠ c.id)
    (hother : ¬(row.written.slug = c.slug ∧ row.written.version = c.version)) :
    Dict.find? (s.put c).rows id = some row := by
  rw [find?_put_of_ne hs hid, hrow]
  by_cases hslug : row.written.slug = c.slug
  · have hversion : row.written.version ≠ c.version := fun h => hother ⟨hslug, h⟩
    simp [hslug, hversion]
  · simp [hslug]

theorem find?_put_gone (hs : Dict.Sorted s.rows) {row : StoredRow}
    (hrow : Dict.find? s.rows id = some row) (hid : id ≠ c.id)
    (hslug : row.written.slug = c.slug) (hversion : row.written.version = c.version) :
    Dict.find? (s.put c).rows id = none := by
  rw [find?_put_of_ne hs hid, hrow]
  simp [hslug, hversion]

/-- A row that cannot be read is as good as none. -/
theorem contract?_of_unread {row : StoredRow} (hrow : Dict.find? s.rows id = some row)
    (hunread : row.contents = none) : s.contract? id = none := by
  rw [contract?, hrow, Option.bind_some, hunread]

/-- The row that a stored contract is read back from. -/
theorem Sound.row_of_mem (h : s.Sound) (hd : d ∈ s.contracts) :
    ∃ row, Dict.find? s.rows d.id = some row ∧ row.contents = some d := by
  obtain ⟨row, hrow, hcontents⟩ := row_of_contract?
    (h.contract?_eq_some.mpr ⟨hd, rfl⟩)
  exact ⟨row, h.sorted.find?_eq_some.mpr hrow, hcontents⟩

/-- A row with the slug and version of a stored contract is its row. -/
theorem Sound.id_of_row (h : s.Sound) (hd : d ∈ s.contracts) {row : StoredRow}
    (hrow : Dict.find? s.rows id = some row) (hslug : row.written.slug = d.slug)
    (hversion : row.written.version = d.version) : d.id = id := by
  obtain ⟨row', hrow', hcontents⟩ := h.row_of_mem hd
  have same := StoredRow.sameIdentity hcontents
  have hpair := h.distinct _ (Dict.mem_of_find? hrow) _ (Dict.mem_of_find? hrow')
    (hslug.trans same.slug) (hversion.trans same.version)
  exact (congrArg Prod.fst hpair).symm

/-- A contract with the slug and version of a written one is the one it took
    the place of. -/
theorem Sound.id_eq_of_written (h : s.Sound) {now : Instant} {mode : WriteMode}
    (hw : s.write now mode c = .ok (written, t)) (hd : d ∈ s.contracts)
    (hslug : d.slug = written.slug) (hversion : d.version = written.version) :
    d.id = written.id := by
  obtain ⟨e, -, ⟨found, hfound, -, rfl, -⟩ | ⟨hnone, rfl, -⟩⟩ := write_ok hw
  · have hd' : s.versioned? e.slug e.version = some d :=
      h.versioned?_eq_some.mpr ⟨hd, hslug, hversion⟩
    rw [Store.existing?, hd'] at hfound
    rw [Option.some.inj hfound]
    rfl
  · have hd' : s.versioned? written.slug written.version = some d :=
      h.versioned?_eq_some.mpr ⟨hd, hslug, hversion⟩
    rw [Store.existing?, hd'] at hnone
    cases hnone

/-! ## Stamps -/

/-- What is known of the rows while the contracts at the ends of a written
    link are stamped. -/
structure Fates (s : Store) (rows : Dict StoredRow) (written : Contract) :
    Prop where
  sorted : Dict.Sorted rows
  fate : ∀ id, Fate s rows written id

section

variable (h : s.Sound)
  (htook : ∀ e ∈ s.contracts, e.slug = written.slug →
    e.version = written.version → e.id = written.id)

include h htook

/-- What gives way to a written contract with another id cannot be read. -/
theorem Sound.unread_of_displaced {row : StoredRow}
    (hrow : Dict.find? s.rows id = some row) (hid : written.id ≠ id)
    (hslug : row.written.slug = written.slug)
    (hversion : row.written.version = written.version) : row.contents = none := by
  refine Option.eq_none_iff_forall_ne_some.mpr fun e hcontents => hid ?_
  have same := StoredRow.sameIdentity hcontents
  have hmem := Dict.mem_of_find? hrow
  have hsame := htook e (mem_contracts.mpr ⟨_, hmem, hcontents⟩)
    (same.slug.trans hslug) (same.version.trans hversion)
  rw [← hsame, same.id, h.keyed _ hmem]

theorem Fates.put_written : Fates s (s.put written).rows written := by
  refine ⟨sorted_put h.sorted _, fun id => ?_⟩
  by_cases hid : id = written.id
  · exact .written hid.symm (hid ▸ find?_put_self s written)
  have hne : written.id ≠ id := Ne.symm hid
  cases hrow : Dict.find? s.rows id with
  | none => exact .kept hne (by rw [find?_put_of_ne h.sorted hid, hrow]; rfl)
  | some row =>
      by_cases htaken : row.written.slug = written.slug
          ∧ row.written.version = written.version
      · obtain ⟨hslug, hversion⟩ := htaken
        exact .lost row hne hrow (h.unread_of_displaced htook hrow hne hslug hversion) hslug
          hversion (find?_put_gone h.sorted hrow hid hslug hversion)
      · exact .kept hne (by rw [find?_put_keeps h.sorted hrow hid htaken, hrow])

/-- A stamp on a stored contract changes no other row. -/
theorem Fates.find?_put_stamped {e : Contract} {linkedAt : Dict Instant}
    (hu : Fates s u.rows written) (he : e ∈ s.contracts) (hid : id ≠ e.id) :
    Dict.find? (u.put { e with linkedAt := linkedAt }).rows id
      = Dict.find? u.rows id := by
  cases hrow : Dict.find? u.rows id with
  | none =>
      have hput := find?_put_of_ne (c := { e with linkedAt := linkedAt }) hu.sorted hid
      rw [hput, hrow]
      rfl
  | some row =>
      refine find?_put_keeps hu.sorted hrow hid ?_
      rintro ⟨hslug, hversion⟩
      -- the stored contract is alone with its slug and version
      cases hu.fate id with
      | kept _ hfound =>
          exact hid (h.id_of_row he (hfound.symm.trans hrow) hslug hversion).symm
      | written hwritten hfound =>
          obtain rfl := Option.some.inj (hfound.symm.trans hrow)
          exact hid ((htook e he hslug.symm hversion.symm).trans hwritten).symm
      | stamped d linkedAt' hd hdid _ hfound =>
          obtain rfl := Option.some.inj (hfound.symm.trans hrow)
          obtain rfl := h.eq_of_version he hd hslug.symm hversion.symm
          exact hid hdid.symm
      | lost _ _ _ _ _ _ hgone => cases hgone.symm.trans hrow

/-- A stamp on a stored contract is the fate of its row and of no other. -/
theorem Fates.put_stamped {e : Contract} {linkedAt : Dict Instant}
    (hu : Fates s u.rows written) (he : e ∈ s.contracts)
    (hlinks : Links written e.id) :
    Fates s (u.put { e with linkedAt := linkedAt }).rows written := by
  refine ⟨sorted_put hu.sorted _, fun id => ?_⟩
  by_cases hid : id = e.id
  · subst hid
    exact .stamped e linkedAt he rfl hlinks (find?_put_self u _)
  have hsame : Dict.find? (u.put { e with linkedAt := linkedAt }).rows id
      = Dict.find? u.rows id := hu.find?_put_stamped h htook he hid
  cases hu.fate id with
  | kept hne hfound => exact .kept hne (hsame.trans hfound)
  | written hwritten hfound => exact .written hwritten (hsame.trans hfound)
  | stamped d linkedAt' hd hdid hdlinks hfound =>
      exact .stamped d linkedAt' hd hdid hdlinks (hsame.trans hfound)
  | lost row hne hrow hunread hslug hversion hfound =>
      exact .lost row hne hrow hunread hslug hversion (hsame.trans hfound)

theorem Fates.stampAll {l : Link} {ends : List (Contract × Json)}
    (hl : Link.ofContract? written = some l)
    (hends : ∀ e ∈ ends, e.1 ∈ s.contracts ∧ (l.fromId = e.1.id ∨ l.toId = e.1.id))
    (hu : Fates s u.rows written) :
    Fates s (Store.stampAll l u ends).1.rows written := by
  induction ends generalizing u with
  | nil => exact hu
  | cons e rest ih =>
      obtain ⟨hmem, hend⟩ := hends e List.mem_cons_self
      refine ih (fun e he => hends e (List.mem_cons_of_mem _ he)) ?_
      show Fates s (u.stamp l e.1).1.rows written
      unfold Store.stamp
      split
      · next stamped hstamped =>
          split at hstamped
          · next hactive =>
              obtain ⟨linked, -, rfl⟩ := Option.map_eq_some_iff.mp hstamped
              exact hu.put_stamped h htook hmem ⟨l, hl, hactive, hend⟩
          · cases hstamped
      · exact hu

end

/-! ## Writing -/

/-- The contracts a link connects are stored ones, at its ends. -/
theorem Sound.mem_endpoints (h : s.Sound) {l : Link} {e : Contract × Json}
    (he : e ∈ s.endpoints (some l)) :
    e.1 ∈ s.contracts ∧ (l.fromId = e.1.id ∨ l.toId = e.1.id) := by
  obtain ⟨id, hid, he⟩ := List.mem_filterMap.mp he
  obtain ⟨c, hc, rfl⟩ := Option.map_eq_some_iff.mp he
  obtain ⟨hmem, rfl⟩ := h.contract?_eq_some.mp hc
  refine ⟨hmem, ?_⟩
  simp only [endpointIds] at hid
  split at hid
  · exact .inl (List.mem_singleton.mp hid).symm
  · rcases List.mem_cons.mp hid with hid | hid
    · exact .inl hid.symm
    · exact .inr (List.mem_singleton.mp hid).symm

/-- Each row has its fate in a write. -/
theorem Sound.fate_of_write (h : s.Sound) {now : Instant} {mode : WriteMode}
    (hw : s.write now mode c = .ok (written, t)) (id : String) :
    Fate s t.rows written id := by
  have htook (e : Contract) (he : e ∈ s.contracts) := h.id_eq_of_written hw he
  have hput := Fates.put_written h htook
  have hover (found : Option Contract) :
      Fates s (s.writeOver written found).rows written := by
    unfold Store.writeOver
    cases hl : Link.ofContract? written with
    | none => exact hput
    | some l =>
        exact Fates.stampAll (u := (s.put written).putLink l) h htook hl
          (fun e he => h.mem_endpoints he) hput
  obtain ⟨e, -, ⟨found, -, -, rfl, rfl⟩ | ⟨-, rfl, rfl⟩⟩ := write_ok hw
  · exact (hover _).fate id
  · exact (hover _).fate id

/-- What is written is under its id, unless it is a link to itself. -/
theorem Sound.find?_written (h : s.Sound) {now : Instant} {mode : WriteMode}
    (hw : s.write now mode c = .ok (written, t)) (hloop : ¬Links written written.id) :
    Dict.find? t.rows written.id = some (.ofContract written) := by
  cases h.fate_of_write hw written.id with
  | kept hne => exact absurd rfl hne
  | written _ hfound => exact hfound
  | stamped _ _ _ _ hlinks => exact absurd hlinks hloop
  | lost _ hne => exact absurd rfl hne

/-- After a write every stored contract has its row still, unless the written
    contract took its place or put a stamp on it. -/
theorem Sound.row_of_write (h : s.Sound) {now : Instant} {mode : WriteMode}
    (hw : s.write now mode c = .ok (written, t)) (hd : d ∈ s.contracts) :
    ∃ row, RowAfter s t written d row := by
  obtain ⟨row, hrow, hcontents⟩ := h.row_of_mem hd
  cases h.fate_of_write hw d.id with
  | kept _ hfound => exact ⟨row, hfound.trans hrow, .inl hrow⟩
  | written hid hfound => exact ⟨_, hfound, .inr (.inl ⟨hid, rfl⟩)⟩
  | stamped e linkedAt he hid hlinks hfound =>
      obtain rfl := h.eq_of_id he hd hid
      exact ⟨_, hfound, .inr (.inr ⟨hlinks, linkedAt, rfl⟩)⟩
  | lost row' _ hrow' hunread =>
      obtain rfl := Option.some.inj (hrow.symm.trans hrow')
      rw [hcontents] at hunread
      cases hunread

/-! ## Names that a write does not touch -/

/-- The rows with a slug that can be read. -/
def named (s : Store) (slug : String) : Dict StoredRow :=
  s.rows.filter fun (_, row) => row.written.slug = slug ∧ row.contents.isSome

theorem versions_eq_named (s : Store) (slug : String) :
    s.versions slug = (s.named slug).filterMap fun (_, row) =>
      row.contents.bind fun c => (Version.parse? c.version).map fun v => (v, c) := by
  rw [versions, named, List.filterMap_filter]
  congr 1
  funext ⟨id, row⟩
  by_cases hslug : row.written.slug = slug
  · cases hcontents : row.contents <;> simp [hslug, hcontents]
  · simp [hslug]

theorem versioned?_eq_named (s : Store) (slug version : String) :
    s.versioned? slug version = (s.named slug).findSome? fun p =>
      if p.2.written.version = version then p.2.contents else none := by
  rw [versioned?, ← List.head?_filterMap, ← List.head?_filterMap, named,
    List.filterMap_filter]
  congr 2
  funext p
  by_cases hslug : p.2.written.slug = slug
  · cases hcontents : p.2.contents <;> simp [hslug, hcontents]
  · simp [hslug]

/-- What is found under a slug depends on its rows alone. -/
theorem find?_of_named {slug : String} (h : t.named slug = s.named slug)
    (choice : VersionChoice) : t.find? slug choice = s.find? slug choice := by
  cases choice with
  | exact v => rw [find?, find?, versioned?_eq_named, versioned?_eq_named, h]
  | latest =>
      rw [find?, find?, latest?, latest?, versions_eq_named, versions_eq_named, h]

/-- Whether a write leaves the contracts with a slug alone. -/
structure Spares (s : Store) (written : Contract) (slug : String) : Prop where
  other : written.slug ≠ slug
  unwritten : ∀ d ∈ s.contracts, d.slug = slug → written.id ≠ d.id
  unlinked : ∀ d ∈ s.contracts, d.slug = slug → ¬Links written d.id

/-- The contracts with a slug that is spared are found as before. -/
theorem Sound.find?_of_write (h : s.Sound) {now : Instant} {mode : WriteMode}
    (hw : s.write now mode c = .ok (written, t)) {slug : String}
    (hspares : s.Spares written slug) (choice : VersionChoice) :
    t.find? slug choice = s.find? slug choice := by
  have ht := h.write hw
  refine find?_of_named (Dict.Sorted.eq_of_mem_iff (ht.sorted.filter _)
    (h.sorted.filter _) fun ⟨id, row⟩ => ?_) choice
  simp only [named, List.mem_filter, ← ht.sorted.find?_eq_some,
    ← h.sorted.find?_eq_some, decide_eq_true_eq]
  refine and_congr_left fun ⟨hslug, hreadable⟩ => ?_
  obtain ⟨d, hd⟩ := Option.isSome_iff_exists.mp hreadable
  have hdslug : d.slug = slug := (StoredRow.sameIdentity hd).slug.trans hslug
  constructor
  · intro hrow
    cases h.fate_of_write hw id with
    | kept _ hfound => exact hfound.symm.trans hrow
    | written hid hfound =>
        obtain rfl := Option.some.inj (hfound.symm.trans hrow)
        exact absurd hslug hspares.other
    | stamped e linkedAt he hid hlinks hfound =>
        obtain rfl := Option.some.inj (hfound.symm.trans hrow)
        exact absurd (hid ▸ hlinks) (hspares.unlinked e he hslug)
    | lost _ _ _ _ _ _ hgone => cases hgone.symm.trans hrow
  · intro hrow
    have hmem : d ∈ s.contracts :=
      mem_contracts.mpr ⟨_, Dict.mem_of_find? hrow, hd⟩
    have hid : d.id = id :=
      (StoredRow.sameIdentity hd).id.trans (h.keyed _ (Dict.mem_of_find? hrow))
    cases h.fate_of_write hw id with
    | kept _ hfound => exact hfound.trans hrow
    | written hwritten => exact absurd (hwritten.trans hid.symm) (hspares.unwritten d hmem hdslug)
    | stamped _ _ _ _ hlinks => exact absurd (hid ▸ hlinks) (hspares.unlinked d hmem hdslug)
    | lost row' _ hrow' hunread =>
        obtain rfl := Option.some.inj (hrow.symm.trans hrow')
        rw [hd] at hunread
        cases hunread

end Store

end LinkedContracts
