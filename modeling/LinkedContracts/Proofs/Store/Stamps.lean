import LinkedContracts.Proofs.Store.Rows

/-! # What is under each id after a write

    The contracts that an active link connects are read before the link is put,
    and written back with their stamps after it.  A contract under the id of the
    link is no exception: a link to itself that takes the place of a contract is
    put first, and then that contract is put back.

    Under all other ids is what was there, and under the id of what is written
    is what is written. -/

namespace LinkedContracts

/-- A link has the id, the activity and the time of creation of its contract. -/
theorem Link.of_ofContract? {c : Contract} {l : Link} (h : ofContract? c = some l) :
    l.id = c.id ∧ l.active = c.active ∧ l.createdAt = c.createdAt := by
  rw [ofContract?] at h
  obtain ⟨-, h⟩ := Option.ite_none_right_eq_some.mp h
  obtain ⟨name, -, h⟩ := Option.bind_eq_some_iff.mp h
  obtain ⟨inverseName, -, h⟩ := Option.bind_eq_some_iff.mp h
  obtain ⟨fromId, -, h⟩ := Option.bind_eq_some_iff.mp h
  obtain ⟨toId, -, h⟩ := Option.bind_eq_some_iff.mp h
  obtain rfl := Option.some.inj h
  exact ⟨rfl, rfl, rfl⟩

/-- The link of a contract that has all the parts of one. -/
theorem Link.ofContract?_eq {c : Contract} {name inverseName fromId toId : String}
    (htype : c.type = Link.type) (hname : c.name = some name)
    (hinverse : c.data.stringField? "inverseName" = some inverseName)
    (hfrom : endpoint? c.data "from" = some fromId)
    (hto : endpoint? c.data "to" = some toId) : ofContract? c
      = some ⟨c.id, name, inverseName, fromId, toId, c.active, c.createdAt⟩ := by
  have hlink : isLinkType c.type = true := by
    rw [htype]
    decide
  simp [ofContract?, hlink, hname, hinverse, hfrom, hto]

/-- A link puts the time of its creation on the contracts it connects. -/
theorem Link.stamp?_of_end {l : Link} {c : Contract}
    (h : l.fromId = c.id ∨ l.toId = c.id) : ∃ name, l.stamp? c
      = some { c with linkedAt := Dict.insert c.linkedAt name l.createdAt } := by
  by_cases hfrom : l.fromId = c.id
  · exact ⟨l.name, by simp [stamp?, seenFrom?, hfrom]⟩
  · have hto := h.resolve_left hfrom
    exact ⟨l.inverseName, by simp [stamp?, seenFrom?, hfrom, hto]⟩

namespace Store

variable {s t u : Store} {c d e : Contract} {l : Link} {id : String} {now : Instant}
  {mode : WriteMode}

/-! ## Stamps -/

/-- Whether the stamp of a link is on the row of a contract. -/
def Marked (u : Store) (l : Link) (e : Contract) : Prop :=
  ∃ stamped, l.stamp? e = some stamped
    ∧ Dict.find? u.rows e.id = some (.ofContract stamped)

theorem stamp_of_stamp? {stamped : Contract} (hactive : l.active = true)
    (h : l.stamp? c = some stamped) : u.stamp l c = (u.put stamped, stamped) := by
  simp only [stamp, hactive, if_true, h]

/-- The stamp of an active link is put on a contract at one of its ends. -/
theorem stamp_end (hactive : l.active = true) (hend : l.fromId = c.id ∨ l.toId = c.id) :
    ∃ name, (u.stamp l c).1 = u.put
      { c with linkedAt := Dict.insert c.linkedAt name l.createdAt } := by
  obtain ⟨name, hstamp⟩ := Link.stamp?_of_end hend
  exact ⟨name, by rw [stamp_of_stamp? hactive hstamp]⟩

theorem marked_stamp_self (hactive : l.active = true)
    (hend : l.fromId = e.id ∨ l.toId = e.id) : Marked (u.stamp l e).1 l e := by
  obtain ⟨name, hstamp⟩ := Link.stamp?_of_end hend
  rw [stamp_of_stamp? hactive hstamp]
  exact ⟨_, hstamp, find?_put_self u _⟩

theorem edges_stamp (u : Store) (l : Link) (c : Contract) :
    (u.stamp l c).1.edges = u.edges := by
  simp only [stamp]
  split <;> rfl

theorem edges_stampAll {ends : List (Contract × Json)} (u : Store) :
    (stampAll l u ends).1.edges = u.edges := by
  induction ends generalizing u with
  | nil => rfl
  | cons p rest ih => exact (ih (u.stamp l p.1).1).trans (edges_stamp u l p.1)

theorem stampAll_inactive (hinactive : l.active = false) (u : Store)
    (ends : List (Contract × Json)) : (stampAll l u ends).1 = u := by
  have hstamp (p : Contract × Json) : (u.stamp l p.1).1 = u := by
    rw [stamp, hinactive]
    rfl
  induction ends with
  | nil => rfl
  | cons p rest ih =>
      show (stampAll l (u.stamp l p.1).1 rest).1 = u
      rw [hstamp, ih]

/-- Stamps change no row but those of what is stamped. -/
theorem Fates.find?_stampAll {written : Contract} (h : s.Sound)
    (htook : ∀ e ∈ s.contracts, e.slug = written.slug → e.version = written.version →
      e.id = written.id)
    (hl : Link.ofContract? written = some l) (hactive : l.active = true)
    (hu : Fates s u.rows written) {ends : List (Contract × Json)}
    (hends : ∀ p ∈ ends, p.1 ∈ s.contracts ∧ (l.fromId = p.1.id ∨ l.toId = p.1.id)
      ∧ id ≠ p.1.id) :
    Dict.find? (Store.stampAll l u ends).1.rows id = Dict.find? u.rows id := by
  induction ends generalizing u with
  | nil => rfl
  | cons p rest ih =>
      obtain ⟨⟨he, hend, hid⟩, hrest⟩ := List.forall_mem_cons.mp hends
      obtain ⟨name, hput⟩ := stamp_end (u := u) hactive hend
      show Dict.find? (Store.stampAll l (u.stamp l p.1).1 rest).1.rows id = _
      rw [ih ?_ hrest, hput]
      · exact hu.find?_put_stamped h htook he hid
      · rw [hput]
        exact hu.put_stamped h htook he ⟨l, hl, hactive, hend⟩

section

variable (h : s.Sound) (he : e ∈ s.contracts)

include h he

/-- A stamp stays when other contracts are stamped. -/
theorem Sound.marked_stamp (hactive : l.active = true) (hu : Dict.Sorted u.rows)
    (hc : c ∈ s.contracts) (hend : l.fromId = c.id ∨ l.toId = c.id)
    (hmarked : Marked u l e) : Marked (u.stamp l c).1 l e := by
  by_cases hid : e.id = c.id
  · obtain rfl := h.eq_of_id he hc hid
    exact marked_stamp_self hactive hend
  · obtain ⟨stamped, hstamp, hrow⟩ := hmarked
    obtain ⟨name, hput⟩ := stamp_end (u := u) hactive hend
    refine ⟨stamped, hstamp, ?_⟩
    rw [hput]
    refine find?_put_keeps hu hrow hid ?_
    rintro ⟨hslug, hversion⟩
    obtain ⟨linked, -, rfl⟩ := Option.map_eq_some_iff.mp hstamp
    exact hid (congrArg Contract.id (h.eq_of_version he hc hslug hversion))

/-- Every contract that is stamped in turn bears its stamp in the end. -/
theorem Sound.marked_stampAll {ends : List (Contract × Json)}
    (hactive : l.active = true) (hu : Dict.Sorted u.rows)
    (hends : ∀ p ∈ ends, p.1 ∈ s.contracts ∧ (l.fromId = p.1.id ∨ l.toId = p.1.id))
    (hmarked : Marked u l e ∨ ∃ p ∈ ends, p.1 = e) :
    Marked (Store.stampAll l u ends).1 l e := by
  induction ends generalizing u with
  | nil =>
      rcases hmarked with hmarked | ⟨p, hp, -⟩
      · exact hmarked
      · cases hp
  | cons p rest ih =>
      obtain ⟨⟨hmem, hend⟩, hrest⟩ := List.forall_mem_cons.mp hends
      obtain ⟨name, hput⟩ := stamp_end (u := u) hactive hend
      have hsorted : Dict.Sorted (u.stamp l p.1).1.rows := by
        rw [hput]
        exact sorted_put hu _
      refine ih hsorted hrest ?_
      rcases hmarked with hmarked | ⟨q, hq, rfl⟩
      · exact .inl (h.marked_stamp he hactive hu hmem hend hmarked)
      · rcases List.mem_cons.mp hq with rfl | hq
        · exact .inl (marked_stamp_self hactive hend)
        · exact .inr ⟨q, hq, rfl⟩

/-- A contract at an end of a link is among those it connects. -/
theorem Sound.mem_endpoints_of_end (hend : l.fromId = e.id ∨ l.toId = e.id) :
    (e, s.image e) ∈ s.endpoints (some l) := by
  have hid : e.id ∈ endpointIds l := by
    rw [endpointIds]
    split
    · next hsame => rcases hend with hend | hend <;> simp [← hend, hsame]
    · rcases hend with hend | hend <;> simp [← hend]
  refine List.mem_filterMap.mpr ⟨e.id, hid, ?_⟩
  rw [h.contract?_eq_some.mpr ⟨he, rfl⟩]
  rfl

end

/-! ## Writing -/

/-- A write is a write over what exists. -/
theorem writeOver_of_write (hw : s.write now mode c = .ok (d, t)) :
    ∃ found, t = s.writeOver d found := by
  obtain ⟨-, -, ⟨found, -, -, -, rfl⟩ | ⟨-, -, rfl⟩⟩ := write_ok hw
  · exact ⟨_, rfl⟩
  · exact ⟨_, rfl⟩

/-- A link is kept if it is active and dropped if it is not; nothing else that is
    written changes what is kept. -/
theorem edges_of_write (hw : s.write now mode c = .ok (d, t)) :
    t.edges = match Link.ofContract? d with
      | none => s.edges
      | some l =>
          if l.active then Dict.insert s.edges d.id (.ofLink l)
          else Dict.erase s.edges d.id := by
  obtain ⟨found, rfl⟩ := writeOver_of_write hw
  simp only [writeOver]
  cases hl : Link.ofContract? d with
  | none => rfl
  | some l =>
      rw [← (Link.of_ofContract? hl).1]
      exact edges_stampAll ((s.put d).putLink l)

section

variable (h : s.Sound) (hw : s.write now mode c = .ok (d, t))

include h hw

/-- What an active link connects has the stamp of the link, even where the link
    itself was put. -/
theorem Sound.marked_of_write (hl : Link.ofContract? d = some l) (hactive : l.active = true)
    (he : e ∈ s.contracts) (hend : l.fromId = e.id ∨ l.toId = e.id) : Marked t l e := by
  obtain ⟨found, rfl⟩ := writeOver_of_write hw
  simp only [Store.writeOver, hl]
  exact h.marked_stampAll (u := (s.put d).putLink l) he hactive (sorted_put h.sorted d)
    (fun p hp => h.mem_endpoints hp) (.inr ⟨_, h.mem_endpoints_of_end he hend, rfl⟩)

/-- What an active link connects is read back from its row with the stamp. -/
theorem Sound.contract?_of_end (hl : Link.ofContract? d = some l)
    (hactive : l.active = true) (he : s.contract? id = some e)
    (hend : l.fromId = id ∨ l.toId = id) :
    ∃ stamped, l.stamp? e = some stamped ∧ t.contract? id = stamped.reread := by
  obtain ⟨hmem, rfl⟩ := h.contract?_eq_some.mp he
  obtain ⟨stamped, hstamp, hrow⟩ := h.marked_of_write hw hl hactive hmem hend
  refine ⟨stamped, hstamp, ?_⟩
  rw [contract?, hrow, Option.bind_some, StoredRow.contents_ofContract]

/-- What an active link does not connect is as it was when the link was put. -/
theorem Sound.find?_of_write_put (hother : ¬Links d id ∨ s.contract? id = none) :
    Dict.find? t.rows id = Dict.find? (s.put d).rows id := by
  have htook (e : Contract) (he : e ∈ s.contracts) := h.id_eq_of_written hw he
  have hput := Fates.put_written h htook
  obtain ⟨found, rfl⟩ := writeOver_of_write hw
  simp only [Store.writeOver]
  cases hl : Link.ofContract? d with
  | none => rfl
  | some l =>
      cases hactive : l.active with
      | false =>
          show Dict.find? (Store.stampAll l ((s.put d).putLink l) _).1.rows id = _
          rw [stampAll_inactive hactive]
          rfl
      | true =>
          refine Fates.find?_stampAll (u := (s.put d).putLink l) h htook hl hactive hput
            fun p hp => ?_
          obtain ⟨hmem, hend⟩ := h.mem_endpoints hp
          refine ⟨hmem, hend, ?_⟩
          rintro rfl
          rcases hother with hunlinked | hnone
          · exact hunlinked ⟨l, hl, hactive, hend⟩
          · cases (h.contract?_eq_some.mpr ⟨hmem, rfl⟩).symm.trans hnone

/-- What gives way to a written contract with another id could not be read, and
    is gone. -/
theorem Sound.gone_of_displaced {row : StoredRow} (hrow : Dict.find? s.rows id = some row)
    (hid : d.id ≠ id) (hslug : row.written.slug = d.slug)
    (hversion : row.written.version = d.version) :
    row.contents = none ∧ Dict.find? t.rows id = none := by
  have hunread := h.unread_of_displaced (fun e he => h.id_eq_of_written hw he) hrow hid hslug
    hversion
  rw [h.find?_of_write_put hw (.inr (contract?_of_unread hrow hunread))]
  exact ⟨hunread, find?_put_gone h.sorted hrow (Ne.symm hid) hslug hversion⟩

/-- Elsewhere is what was there, and what is written under its id. -/
theorem Sound.contract?_of_write (hother : ¬Links d id ∨ s.contract? id = none) :
    t.contract? id = if id = d.id then d.reread else s.contract? id := by
  cases h.fate_of_write hw id with
  | kept hid hfound => rw [if_neg (Ne.symm hid), contract?, hfound, contract?]
  | written hid hfound =>
      rw [if_pos hid.symm, contract?, hfound, Option.bind_some,
        StoredRow.contents_ofContract]
  | stamped e linkedAt he hid hlinks hfound =>
      -- what was stamped was there
      have hthere : s.contract? id = some e := h.contract?_eq_some.mpr ⟨he, hid⟩
      rcases hother with hunlinked | hnone
      · exact absurd hlinks hunlinked
      · cases hthere.symm.trans hnone
  | lost row hid hrow hunread _ _ hfound =>
      rw [if_neg (Ne.symm hid), contract?, contract?, hfound, hrow, Option.bind_some,
        hunread]
      rfl

end

end Store

end LinkedContracts
