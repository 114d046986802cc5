import LinkedContracts.Proofs.Store.Images

/-! # Neighbours

    The contracts linked to a contract under a name are told in three ways: a
    kept link is looked at from the contract, the store is asked for what is
    linked, and an image of the contract shows it.

    The first and the last agree always.  The store takes a link from a
    contract to itself under both of its names, where the others take it under
    the one it has from its `from` side. -/

namespace LinkedContracts

/-- The ids of the contracts that a document shows under a link name. -/
def Json.shownIds (image : Json) (name : String) : List String :=
  ((((image.field? "links").bind fun links => links.field? name).bind
    Json.asArray?).getD []).filterMap fun row => row.stringField? "id"

/-- What a link looks like from one of its ends. -/
theorem Link.seenFrom?_eq_some {l : Link} {id : String} {linked : Linked} :
    l.seenFrom? id = some linked ↔ (l.fromId = id ∨ l.toId = id)
      ∧ linked = ⟨(Edge.ofLink l).nameFrom id, (Edge.ofLink l).farEnd id, l.createdAt⟩ := by
  rw [seenFrom?]
  by_cases hfrom : l.fromId = id
  · simp [hfrom, Edge.ofLink, Edge.nameFrom, Edge.farEnd, eq_comm]
  · by_cases hto : l.toId = id
    · simp [hfrom, hto, Edge.ofLink, Edge.nameFrom, Edge.farEnd, eq_comm]
    · simp [hfrom, hto]

/-- A link attaches to a contract under the name it has from there, and a link
    from the contract to itself under the other one too. -/
theorem Edge.attaches_iff {e : Edge} {id name : String} :
    e.attaches id name = true ↔ (e.fromId = id ∨ e.toId = id) ∧ e.nameFrom id = name
      ∨ e.fromId = id ∧ e.toId = id ∧ e.inverseName = name := by
  simp only [Edge.attaches, Edge.nameFrom, Bool.or_eq_true, Bool.and_eq_true, beq_iff_eq]
  by_cases hfrom : e.fromId = id
  · simp [hfrom]
  · simp [hfrom]

theorem Edge.end_of_attaches {e : Edge} {id name : String}
    (h : e.attaches id name = true) : e.fromId = id ∨ e.toId = id := by
  rcases attaches_iff.mp h with ⟨hend, -⟩ | ⟨hfrom, -⟩
  · exact hend
  · exact .inl hfrom

namespace Store

variable {s t : Store} {c : Contract} {id name other : String}

/-! ## The three readings -/

/-- Whether there is an active contract with an id. -/
def Active (s : Store) (id : String) : Prop :=
  ∃ c ∈ s.contracts, c.id = id ∧ c.active = true

/-- Whether a kept link, looked at from a contract, has a name and leads to an
    active contract. -/
def Sees (s : Store) (id name other : String) : Prop :=
  ∃ (l : Link) (linked : Linked), (l.id, Edge.ofLink l) ∈ s.edges
    ∧ l.seenFrom? id = some linked ∧ linked.name = name ∧ linked.id = other
    ∧ s.Active other

/-- Whether an active contract is linked to itself by a link whose other name,
    that from its `to` side, is a given one. -/
def Loops (s : Store) (id name : String) : Prop :=
  s.Active id
    ∧ ∃ p ∈ s.edges, p.2.fromId = id ∧ p.2.toId = id ∧ p.2.inverseName = name

/-- Only what the link is matters, not when it was made. -/
theorem sees_iff : s.Sees id name other ↔ s.Active other ∧ ∃ p ∈ s.edges,
    (p.2.fromId = id ∨ p.2.toId = id) ∧ p.2.nameFrom id = name
      ∧ p.2.farEnd id = other := by
  constructor
  · rintro ⟨l, linked, hmem, hseen, rfl, rfl, hactive⟩
    obtain ⟨hend, rfl⟩ := Link.seenFrom?_eq_some.mp hseen
    exact ⟨hactive, _, hmem, hend, rfl, rfl⟩
  · rintro ⟨hactive, ⟨key, e⟩, hmem, hend, rfl, rfl⟩
    let l : Link := ⟨key, e.name, e.inverseName, e.fromId, e.toId, true, default⟩
    exact ⟨l, _, hmem, Link.seenFrom?_eq_some.mpr ⟨hend, rfl⟩, rfl, rfl, hactive⟩

theorem Sound.active_iff (h : s.Sound) :
    s.Active id ↔ ∃ c, s.contract? id = some c ∧ c.active = true := by
  constructor
  · rintro ⟨c, hc, hid, hactive⟩
    exact ⟨c, h.contract?_eq_some.mpr ⟨hc, hid⟩, hactive⟩
  · rintro ⟨c, hc, hactive⟩
    obtain ⟨hmem, hid⟩ := h.contract?_eq_some.mp hc
    exact ⟨c, hmem, hid, hactive⟩

/-! ## Images -/

/-- An image shows rows under a name, edge by edge. -/
theorem shownIds_image (s : Store) (c : Contract) (name : String) :
    (s.image c).shownIds name = (s.edges.filterMap fun p =>
      s.shownBy c.id name p.2).filterMap fun row => row.stringField? "id" := by
  have hlinks : (s.image c).field? "links" = some (Contract.linksJson (s.linksOf c.id)) :=
    Dict.find?_insert_self _ _ _
  have hnamed : ((Contract.linksJson (s.linksOf c.id)).field? name).bind Json.asArray?
      = Dict.find? (s.linksOf c.id) name := by
    show (Dict.find? (Dict.mapValues Json.array (s.linksOf c.id)) name).bind _ = _
    rw [Dict.find?_mapValues]
    cases Dict.find? (s.linksOf c.id) name <;> rfl
  rw [Json.shownIds, hlinks, Option.bind_some, hnamed, linksOf_eq_filterMap]

theorem Sound.shownBy_eq_some (h : s.Sound) {e : Edge} :
    (∃ row, s.shownBy id name e = some row ∧ row.stringField? "id" = some other)
      ↔ s.Active other ∧ (e.fromId = id ∨ e.toId = id) ∧ e.nameFrom id = name
        ∧ e.farEnd id = other := by
  rw [h.active_iff]
  simp only [shownBy, Option.ite_none_right_eq_some, Option.map_eq_some_iff,
    Option.filter_eq_some_iff]
  constructor
  · rintro ⟨row, ⟨⟨hend, hname⟩, d, ⟨hd, hactive⟩, rfl⟩, hid⟩
    have hother : d.id = other := Option.some.inj hid
    have hfar : d.id = e.farEnd id := (h.contract?_eq_some.mp hd).2
    rw [← hfar, hother] at hd
    exact ⟨⟨d, hd, hactive⟩, hend, hname, hfar.symm.trans hother⟩
  · rintro ⟨⟨d, hd, hactive⟩, hend, hname, rfl⟩
    have hfar : d.id = e.farEnd id := (h.contract?_eq_some.mp hd).2
    exact ⟨d.toRow, ⟨⟨hend, hname⟩, d, ⟨hd, hactive⟩, rfl⟩, congrArg some hfar⟩

/-- An image shows what its contract is seen linked to. -/
theorem Sound.mem_shownIds (h : s.Sound) :
    other ∈ (s.image c).shownIds name ↔ s.Sees c.id name other := by
  rw [shownIds_image, sees_iff]
  constructor
  · intro hmem
    obtain ⟨row, hrow, hid⟩ := List.mem_filterMap.mp hmem
    obtain ⟨p, hp, hshown⟩ := List.mem_filterMap.mp hrow
    obtain ⟨hactive, hseen⟩ := h.shownBy_eq_some.mp ⟨row, hshown, hid⟩
    exact ⟨hactive, p, hp, hseen⟩
  · rintro ⟨hactive, p, hp, hseen⟩
    obtain ⟨row, hshown, hid⟩ := h.shownBy_eq_some.mpr ⟨hactive, hseen⟩
    exact List.mem_filterMap.mpr ⟨row, List.mem_filterMap.mpr ⟨p, hp, hshown⟩, hid⟩

/-! ## Look-ups -/

/-- The contracts at the far ends that are read as active. -/
theorem Sound.mem_linked (h : s.Sound) :
    other ∈ (s.linked id name).map Contract.id ↔ s.Active other
      ∧ ∃ p ∈ s.edges, p.2.attaches id name = true ∧ p.2.farEnd id = other := by
  rw [h.active_iff]
  simp only [linked, linkedRows, List.mem_map, List.mem_filterMap, List.mem_mergeSort,
    Option.ite_none_right_eq_some, Option.filter_eq_some_iff]
  constructor
  · rintro ⟨d, ⟨row, ⟨p, hp, hattaches, hrow, hactive⟩, hcontents⟩, hid⟩
    have hd : s.contract? (p.2.farEnd id) = some d := by
      rw [contract?, hrow, Option.bind_some, hcontents]
    have hfar : d.id = p.2.farEnd id := (h.contract?_eq_some.mp hd).2
    rw [← hfar, hid] at hd
    have hread := Contract.active_of_reread (StoredRow.reread hcontents)
    exact ⟨⟨d, hd, hread.trans hactive⟩, p, hp, hattaches, hfar.symm.trans hid⟩
  · rintro ⟨⟨d, hd, hactive⟩, p, hp, hattaches, rfl⟩
    obtain ⟨row, hrow, hcontents⟩ := Option.bind_eq_some_iff.mp hd
    have hread := Contract.active_of_reread (StoredRow.reread hcontents)
    exact ⟨d, ⟨row, ⟨p, hp, hattaches, hrow, hread.symm.trans hactive⟩, hcontents⟩,
      (h.contract?_eq_some.mp hd).2⟩

/-- The store links to a contract what it is seen linked to, and the contract
    itself under the other name of a link to itself. -/
theorem Sound.mem_linked_iff (h : s.Sound) :
    other ∈ (s.linked id name).map Contract.id
      ↔ s.Sees id name other ∨ other = id ∧ s.Loops id name := by
  rw [h.mem_linked, sees_iff]
  constructor
  · rintro ⟨hactive, p, hp, hattaches, rfl⟩
    rcases Edge.attaches_iff.mp hattaches with ⟨hend, hname⟩ | ⟨hfrom, hto, hname⟩
    · exact .inl ⟨hactive, p, hp, hend, hname, rfl⟩
    · have hfar : p.2.farEnd id = id := by rw [Edge.farEnd, if_pos hfrom, hto]
      exact .inr ⟨hfar, hfar ▸ hactive, p, hp, hfrom, hto, hname⟩
  · rintro (⟨hactive, p, hp, hend, hname, hfar⟩ | ⟨rfl, hactive, p, hp, hfrom, hto, hname⟩)
    · exact ⟨hactive, p, hp, Edge.attaches_iff.mpr (.inl ⟨hend, hname⟩), hfar⟩
    · refine ⟨hactive, p, hp, Edge.attaches_iff.mpr (.inr ⟨hfrom, hto, hname⟩), ?_⟩
      rw [Edge.farEnd, if_pos hfrom, hto]

/-- All readings agree if and only if every link to itself is seen under its
    other name too, as that of some link. -/
theorem Sound.mem_linked_iff_sees (h : s.Sound) :
    (∀ other, other ∈ (s.linked id name).map Contract.id ↔ s.Sees id name other)
      ↔ (s.Loops id name → s.Sees id name id) := by
  simp only [h.mem_linked_iff]
  constructor
  · intro hall hloops
    exact (hall id).mp (.inr ⟨rfl, hloops⟩)
  · intro hloops other
    refine ⟨?_, .inl⟩
    rintro (hsees | ⟨rfl, hloop⟩)
    · exact hsees
    · exact hloops hloop

end Store

end LinkedContracts
