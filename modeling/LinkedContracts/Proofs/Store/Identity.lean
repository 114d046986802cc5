import LinkedContracts.Proofs.Contract
import LinkedContracts.Store.Write

/-! # The identity of kept contracts

    Every kept contract is found under its id, no two share a slug and
    version, and every version is in canonical form.  Each way to write to a
    store keeps this. -/

namespace LinkedContracts

/-- A contract in the form in which contracts are kept. -/
structure Contract.Kept (c : Contract) : Prop where
  id : c.id.isEmpty = false
  slug : c.slug.isEmpty = false
  version : ∃ v : Version, v.Spelled ∧ c.version = v.text
  links : c.links = []

/-- What is read back is in the form in which contracts are kept. -/
theorem Contract.Kept.reread {c d : Contract} (h : c.Kept)
    (hd : c.reread = some d) : d.Kept := by
  have same := sameIdentity_of_reread hd
  refine ⟨?_, ?_, ?_, links_of_reread hd⟩
  · rw [same.id]; exact h.id
  · rw [same.slug]; exact h.slug
  · rw [same.version]; exact h.version

@[simp] theorem StoredRow.contents_ofContract (c : Contract) :
    (StoredRow.ofContract c).contents = c.reread := by
  rw [StoredRow.ofContract]

@[simp] theorem StoredRow.written_ofContract (c : Contract) :
    (StoredRow.ofContract c).written = c := by
  rw [StoredRow.ofContract]

/-- What a row gives is read back from what was put. -/
theorem StoredRow.reread {row : StoredRow} {c : Contract}
    (h : row.contents = some c) : row.written.reread = some c := by
  rw [← row.contents_eq, h]

/-- What a row gives has the identity of what was put. -/
theorem StoredRow.sameIdentity {row : StoredRow} {c : Contract}
    (h : row.contents = some c) : Contract.SameIdentity row.written c :=
  Contract.sameIdentity_of_reread (StoredRow.reread h)

namespace Store

/-- Kept contracts are told apart by their ids, and by their slugs and
    versions. -/
structure Sound (s : Store) : Prop where
  sorted : Dict.Sorted s.rows
  keyed : ∀ p ∈ s.rows, p.2.written.id = p.1
  kept : ∀ p ∈ s.rows, p.2.written.Kept
  distinct : ∀ p ∈ s.rows, ∀ q ∈ s.rows,
    p.2.written.slug = q.2.written.slug →
    p.2.written.version = q.2.written.version → p = q

variable {s : Store} {c d : Contract}

theorem sound_empty : Sound {} where
  sorted := Dict.sorted_nil
  keyed _ hp := absurd hp List.not_mem_nil
  kept _ hp := absurd hp List.not_mem_nil
  distinct _ hp := absurd hp List.not_mem_nil

/-- Only the rows matter. -/
theorem Sound.of_rows {t : Store} (h : s.Sound) (hrows : t.rows = s.rows) :
    t.Sound where
  sorted := hrows ▸ h.sorted
  keyed := hrows ▸ h.keyed
  kept := hrows ▸ h.kept
  distinct := hrows ▸ h.distinct

/-! ## Reading -/

/-- The row that a contract is read back from. -/
theorem row_of_contract? {id : String} (h : s.contract? id = some c) :
    ∃ row, (id, row) ∈ s.rows ∧ row.contents = some c := by
  obtain ⟨row, hrow, hc⟩ := Option.bind_eq_some_iff.mp h
  exact ⟨row, Dict.mem_of_find? hrow, hc⟩

theorem row_of_versioned? {slug version : String}
    (h : s.versioned? slug version = some c) :
    ∃ p ∈ s.rows, p.2.written.slug = slug ∧ p.2.written.version = version
      ∧ p.2.contents = some c := by
  obtain ⟨⟨id, row⟩, hp, hc⟩ := List.exists_of_findSome?_eq_some h
  obtain ⟨heq, hc⟩ := Option.ite_none_right_eq_some.mp hc
  exact ⟨_, hp, heq.1, heq.2, hc⟩

theorem mem_contracts : c ∈ s.contracts ↔ ∃ p ∈ s.rows, p.2.contents = some c := by
  simp [contracts, List.mem_filterMap]

theorem mem_contracts_of_linked {id linkType : String} (h : c ∈ s.linked id linkType) :
    c ∈ s.contracts := by
  obtain ⟨row, hrow, hcontents⟩ := List.mem_filterMap.mp h
  rw [List.mem_mergeSort] at hrow
  obtain ⟨⟨key, e⟩, -, hfar⟩ := List.mem_filterMap.mp hrow
  dsimp only at hfar
  split at hfar
  · have hfind := (Option.filter_eq_some_iff.mp hfar).1
    exact List.mem_filterMap.mpr ⟨_, Dict.mem_of_find? hfind, hcontents⟩
  · cases hfar

/-- What a written contract leaves of the rows is in order. -/
theorem sorted_left (hs : Dict.Sorted s.rows) (c : Contract) :
    Dict.Sorted (s.rows.filter fun (id, row) =>
      id == c.id || !(row.written.slug == c.slug && row.written.version == c.version)) :=
  hs.filter _

namespace Sound

variable (h : s.Sound)

include h

theorem kept_of_mem (hc : c ∈ s.contracts) : c.Kept := by
  obtain ⟨p, hp, hc⟩ := mem_contracts.mp hc
  exact (h.kept p hp).reread (StoredRow.reread hc)

/-- A contract is found under its id, and nothing else is. -/
theorem contract?_eq_some {id : String} :
    s.contract? id = some c ↔ c ∈ s.contracts ∧ c.id = id := by
  constructor
  · intro hc
    obtain ⟨row, hrow, hc⟩ := row_of_contract? hc
    refine ⟨mem_contracts.mpr ⟨_, hrow, hc⟩, ?_⟩
    rw [(StoredRow.sameIdentity hc).id,
      h.keyed _ hrow]
  · rintro ⟨hc, rfl⟩
    obtain ⟨p, hp, hc⟩ := mem_contracts.mp hc
    have hid : c.id = p.1 := by
      rw [(StoredRow.sameIdentity hc).id, h.keyed p hp]
    rw [contract?, hid, h.sorted.find?_eq_some.mpr hp]
    exact hc

/-- A contract is found under its slug and version, and nothing else is. -/
theorem versioned?_eq_some {slug version : String} :
    s.versioned? slug version = some c
      ↔ c ∈ s.contracts ∧ c.slug = slug ∧ c.version = version := by
  constructor
  · intro hc
    obtain ⟨p, hp, hslug, hversion, hc⟩ := row_of_versioned? hc
    have same := StoredRow.sameIdentity hc
    refine ⟨mem_contracts.mpr ⟨p, hp, hc⟩, ?_, ?_⟩
    · rw [same.slug, hslug]
    · rw [same.version, hversion]
  · rintro ⟨hc, rfl, rfl⟩
    obtain ⟨p, hp, hc⟩ := mem_contracts.mp hc
    have same := StoredRow.sameIdentity hc
    have hfound : (s.versioned? c.slug c.version).isSome := by
      rw [versioned?, List.isSome_findSome?, List.any_eq_true]
      obtain ⟨id, row⟩ := p
      refine ⟨_, hp, ?_⟩
      simp only [if_pos (And.intro same.slug.symm same.version.symm)]
      exact Option.isSome_iff_exists.mpr ⟨_, hc⟩
    obtain ⟨d, hd⟩ := Option.isSome_iff_exists.mp hfound
    obtain ⟨q, hq, hslug, hversion, hqd⟩ := row_of_versioned? hd
    obtain rfl : p = q := h.distinct p hp q hq
      (by rw [hslug, same.slug]) (by rw [hversion, same.version])
    rw [hd, ← hqd, hc]

theorem eq_of_id (hc : c ∈ s.contracts) (hd : d ∈ s.contracts)
    (hid : c.id = d.id) : c = d :=
  Option.some.inj <|
    (h.contract?_eq_some.mpr ⟨hc, hid⟩).symm.trans
      (h.contract?_eq_some.mpr ⟨hd, rfl⟩)

theorem eq_of_version (hc : c ∈ s.contracts) (hd : d ∈ s.contracts)
    (hslug : c.slug = d.slug) (hversion : c.version = d.version) : c = d :=
  Option.some.inj <|
    (h.versioned?_eq_some.mpr ⟨hc, hslug, hversion⟩).symm.trans
      (h.versioned?_eq_some.mpr ⟨hd, rfl, rfl⟩)

/-! ## Writing -/

theorem put (hc : c.Kept) : (s.put c).Sound := by
  have hkept := sorted_left h.sorted c
  have mem {p : String × StoredRow} (hp : p ∈ (s.put c).rows) :
      p = (c.id, .ofContract c) ∨ p ∈ s.rows ∧ p.1 ≠ c.id
        ∧ ¬(p.2.written.slug = c.slug ∧ p.2.written.version = c.version) := by
    rcases hkept.mem_insert.mp hp with rfl | ⟨hp, hne⟩
    · exact .inl rfl
    · obtain ⟨hp, hother⟩ := List.mem_filter.mp hp
      refine .inr ⟨hp, hne, fun ⟨hslug, hversion⟩ => ?_⟩
      simp [hne, hslug, hversion] at hother
  refine ⟨hkept.insert c.id _, fun p hp => ?_, fun p hp => ?_,
    fun p hp q hq hslug hversion => ?_⟩
  · rcases mem hp with rfl | ⟨hp, -, -⟩
    · rfl
    · exact h.keyed p hp
  · rcases mem hp with rfl | ⟨hp, -, -⟩
    · exact hc
    · exact h.kept p hp
  · rcases mem hp with rfl | ⟨hp, -, hnp⟩ <;> rcases mem hq with rfl | ⟨hq, -, hnq⟩
    · rfl
    · exact absurd ⟨hslug.symm, hversion.symm⟩ hnq
    · exact absurd ⟨hslug, hversion⟩ hnp
    · exact h.distinct p hp q hq hslug hversion

theorem stamp (hc : c.Kept) (l : Link) : (s.stamp l c).1.Sound := by
  simp only [Store.stamp]
  split
  · next stamped hstamped =>
      refine h.put ?_
      split at hstamped
      · obtain ⟨linked, -, rfl⟩ := Option.map_eq_some_iff.mp hstamped
        exact ⟨hc.id, hc.slug, hc.version, hc.links⟩
      · cases hstamped
  · exact h

end Sound

theorem Sound.stampAll (h : s.Sound) (l : Link) {ends : List (Contract × Json)}
    (hends : ∀ e ∈ ends, e.1.Kept) : (Store.stampAll l s ends).1.Sound := by
  induction ends generalizing s with
  | nil => exact h
  | cons e rest ih =>
      exact ih (h.stamp (hends e List.mem_cons_self) l)
        fun e he => hends e (List.mem_cons_of_mem _ he)

/-- The contracts a link connects are kept ones. -/
theorem Sound.endpoints (h : s.Sound) (link : Option Link) :
    ∀ e ∈ s.endpoints link, e.1.Kept := by
  intro e he
  cases link with
  | none => cases he
  | some l =>
      obtain ⟨id, -, hid⟩ := List.mem_filterMap.mp he
      obtain ⟨c, hc, rfl⟩ := Option.map_eq_some_iff.mp hid
      exact h.kept_of_mem (h.contract?_eq_some.mp hc).1

theorem Sound.writeOver (h : s.Sound) (hc : c.Kept) (found : Option Contract) :
    (s.writeOver c found).Sound := by
  have hends := h.endpoints (Link.ofContract? c)
  simp only [Store.writeOver, relink]
  split
  · exact (h.put hc).of_rows rfl
  · next l _ =>
      have hlink : ((s.put c).putLink l).Sound := (h.put hc).of_rows rfl
      exact (hlink.stampAll l hends).of_rows rfl

/-- What is written has an id and a slug, its version in canonical form, and
    no links. -/
theorem canonical_ok (h : canonical c = .ok d) :
    c.id.isEmpty = false ∧ c.slug.isEmpty = false
      ∧ ∃ v, Version.parse? c.version = some v
        ∧ d = { c with version := v.text, links := [] } := by
  simp only [canonical, Contract.checkIdentity, Contract.parsedVersion,
    Version.parse, bind, Except.bind] at h
  cases hid : c.id.isEmpty with
  | true => simp [hid] at h
  | false =>
      cases hslug : c.slug.isEmpty with
      | true => simp [hid, hslug] at h
      | false =>
          cases hv : Version.parse? c.version with
          | none => simp [hid, hslug, hv] at h
          | some v =>
              simp only [hid, hslug, hv] at h
              obtain rfl := Except.ok.inj h
              exact ⟨rfl, rfl, v, rfl, rfl⟩

/-- What is written is brought into the form in which contracts are kept. -/
theorem kept_of_canonical (h : canonical c = .ok d) :
    d.Kept ∧ d.id = c.id ∧ d.slug = c.slug := by
  obtain ⟨hid, hslug, v, hv, rfl⟩ := canonical_ok h
  exact ⟨⟨hid, hslug, ⟨v, Version.spelled_of_parse? hv, rfl⟩, rfl⟩, rfl, rfl⟩

/-- A contract takes the place of the one with its slug and version, and of
    the one with its id where there is none. -/
theorem Sound.existing?_eq_some (h : s.Sound) :
    s.existing? c = some d ↔ d ∈ s.contracts
      ∧ (d.slug = c.slug ∧ d.version = c.version
        ∨ s.versioned? c.slug c.version = none ∧ d.id = c.id) := by
  rw [Store.existing?]
  cases hfound : s.versioned? c.slug c.version with
  | some found =>
      obtain ⟨hmem, hslug, hversion⟩ := h.versioned?_eq_some.mp hfound
      constructor
      · intro hd
        obtain rfl := Option.some.inj hd
        exact ⟨hmem, .inl ⟨hslug, hversion⟩⟩
      · rintro ⟨hd, ⟨hslug', hversion'⟩ | ⟨hnone, -⟩⟩
        · rw [h.eq_of_version hmem hd (hslug.trans hslug'.symm)
            (hversion.trans hversion'.symm)]
        · cases hnone
  | none =>
      constructor
      · intro hd
        obtain ⟨hmem, hid⟩ := h.contract?_eq_some.mp hd
        exact ⟨hmem, .inr ⟨rfl, hid⟩⟩
      · rintro ⟨hd, ⟨hslug, hversion⟩ | ⟨-, hid⟩⟩
        · rw [h.versioned?_eq_some.mpr ⟨hd, hslug, hversion⟩] at hfound
          cases hfound
        · exact h.contract?_eq_some.mpr ⟨hd, hid⟩

theorem Sound.existing? (h : s.Sound) (hfound : s.existing? c = some d) :
    d ∈ s.contracts :=
  (h.existing?_eq_some.mp hfound).1

/-- What is written in the place of a kept contract is in the form in which
    contracts are kept. -/
theorem kept_replacing (now : Instant) (hc : c.Kept) (hd : d.Kept) :
    (replacing now c d).Kept :=
  ⟨hd.id, hc.slug, hc.version, hc.links⟩

/-- A new contract is written as it is kept. -/
theorem write_fresh (mode : WriteMode) (hc : canonical c = .ok d)
    (hnew : s.existing? d = none) (now : Instant) :
    s.write now mode c = .ok (d, s.writeOver d none) := by
  simp only [write, hc, hnew, bind, Except.bind]
  rfl

/-- A contract is written in the place of the one that exists already. -/
theorem write_existing {found : Contract} (hc : canonical c = .ok d)
    (hfound : s.existing? d = some found) (now : Instant) :
    s.write now .upsert c
      = .ok (replacing now d found, s.writeOver (replacing now d found) (some found)) := by
  simp only [write, hc, hfound, bind, Except.bind]
  rfl

/-- A contract is not inserted over another one. -/
theorem write_refused {found : Contract} (hc : canonical c = .ok d)
    (hfound : s.existing? d = some found) (now : Instant) :
    s.write now .insert c = .error (.alreadyExists d.versionedSlug found.id) := by
  simp only [write, hc, hfound, bind, Except.bind]

/-- The ways in which a contract is written: over the kept contract that
    exists, or as a new one. -/
theorem write_ok {now : Instant} {mode : WriteMode} {t : Store}
    (h : s.write now mode c = .ok (d, t)) :
    ∃ e, canonical c = .ok e ∧
      ((∃ found, s.existing? e = some found ∧ mode = .upsert
          ∧ d = replacing now e found ∧ t = s.writeOver d (some found))
        ∨ (s.existing? e = none ∧ d = e ∧ t = s.writeOver d none)) := by
  simp only [write, bind, Except.bind] at h
  split at h
  · cases h
  · next e he =>
      refine ⟨e, he, ?_⟩
      split at h
      · cases h
      · next found hfound =>
          obtain ⟨rfl, rfl⟩ := Prod.mk.inj (Except.ok.inj h)
          exact .inl ⟨found, hfound, rfl, rfl, rfl⟩
      · next hnone =>
          obtain ⟨rfl, rfl⟩ := Prod.mk.inj (Except.ok.inj h)
          exact .inr ⟨hnone, rfl, rfl⟩

theorem type_written {now : Instant} {mode : WriteMode} {t : Store}
    (h : s.write now mode c = .ok (d, t)) : d.type = c.type := by
  obtain ⟨e, he, hwritten⟩ := write_ok h
  obtain ⟨-, -, v, -, rfl⟩ := canonical_ok he
  rcases hwritten with ⟨found, -, -, rfl, -⟩ | ⟨-, rfl, -⟩
  · rfl
  · rfl

/-- Writing a contract keeps the contracts told apart. -/
theorem Sound.write (h : s.Sound) {now : Instant} {mode : WriteMode}
    {t : Store} (hw : s.write now mode c = .ok (d, t)) : t.Sound := by
  obtain ⟨e, he, ⟨found, hfound, -, rfl, rfl⟩ | ⟨-, rfl, rfl⟩⟩ := write_ok hw
  · exact h.writeOver (kept_replacing now (kept_of_canonical he).1
      (h.kept_of_mem (h.existing? hfound))) _
  · exact h.writeOver (kept_of_canonical he).1 _

end Store

end LinkedContracts
