import LinkedContracts.Proofs.Store.Neighbours
import LinkedContracts.Proofs.Store.Stamps

/-! # What a write announces

    A write announces what it wrote, with an image of the store that it leaves,
    and then the contracts that the written link connects, each with an image of
    the store as it is when the contract has been stamped.

    These images are made on the way, but they show the links that the store has
    in the end: the link is kept before the first stamp is put, and a stamp makes
    no contract active or inactive. -/

namespace LinkedContracts

/-- What a link leaves of a contract it connects. -/
def Link.marked (l : Link) (c : Contract) : Contract :=
  if l.active then (l.stamp? c).getD c else c

theorem Link.marked_of_stamp? {l : Link} {c stamped : Contract} (hactive : l.active = true)
    (h : l.stamp? c = some stamped) : l.marked c = stamped := by
  rw [marked, if_pos hactive, h]
  rfl

theorem Link.marked_of_inactive {l : Link} (h : l.active = false) (c : Contract) :
    l.marked c = c := by
  rw [marked, h]
  rfl

/-- A stamp is all that a link puts on a contract. -/
theorem Link.marked_eq (l : Link) (c : Contract) :
    ∃ linkedAt, l.marked c = { c with linkedAt := linkedAt } := by
  cases hactive : l.active with
  | false => exact ⟨c.linkedAt, marked_of_inactive hactive c⟩
  | true =>
      rw [marked, if_pos hactive, stamp?]
      cases l.seenFrom? c.id with
      | none => exact ⟨c.linkedAt, rfl⟩
      | some linked => exact ⟨_, rfl⟩

theorem Link.id_marked (l : Link) (c : Contract) : (l.marked c).id = c.id := by
  obtain ⟨linkedAt, h⟩ := l.marked_eq c
  rw [h]

namespace Store

variable {s t u v : Store} {c d e : Contract} {l : Link} {id name other : String}
  {now : Instant} {mode : WriteMode} {ch : Change}

/-- A change of a contract whose images show what it saw in one store and what it
    sees in another. -/
structure Relates (s t : Store) (id : String) (ch : Change) : Prop where
  self : ch.id = id
  kind : ch.kind = .update
  before : ∃ image, ch.before = some image
    ∧ ∀ name other, other ∈ image.shownIds name ↔ s.Sees id name other
  after : ∃ image, ch.after = some image
    ∧ ∀ name other, other ∈ image.shownIds name ↔ t.Sees id name other

/-- What is pending does not matter. -/
theorem Relates.pending (h : Relates s t id ch) (pending : List Change) :
    Relates s { t with pending := pending } id ch :=
  ⟨h.self, h.kind, h.before, h.after⟩

/-! ## Stamps, one after another -/

theorem stamp_snd (u : Store) (l : Link) (c : Contract) : (u.stamp l c).2 = l.marked c := by
  rw [stamp, Link.marked]
  cases l.active with
  | false => rfl
  | true => cases l.stamp? c <;> rfl

/-- The change that announces a contract that a link connects, with an image of
    a store. -/
def marking (l : Link) (u : Store) (p : Contract × Json) : Change :=
  ⟨p.1.id, .update, some p.2, some (u.image (l.marked p.1))⟩

theorem stampAll_cons (l : Link) (u : Store) (p : Contract × Json)
    (rest : List (Contract × Json)) : (stampAll l u (p :: rest)).2
      = marking l (u.stamp l p.1).1 p :: (stampAll l (u.stamp l p.1).1 rest).2 := by
  have hid : (u.stamp l p.1).2.id = p.1.id := by rw [stamp_snd, Link.id_marked]
  show (⟨(u.stamp l p.1).2.id, .update, some p.2,
    some ((u.stamp l p.1).1.image (u.stamp l p.1).2)⟩ : Change) :: _ = _
  rw [hid, stamp_snd]
  rfl

/-- Each contract is announced with an image from when it has been stamped, and
    those before it. -/
theorem mem_stampAll {ends : List (Contract × Json)} : ch ∈ (stampAll l u ends).2
    ↔ ∃ pre p post, ends = pre ++ p :: post
      ∧ ch = marking l (stampAll l u (pre ++ [p])).1 p := by
  induction ends generalizing u with
  | nil => simp [stampAll]
  | cons p rest ih =>
      rw [stampAll_cons, List.mem_cons, ih]
      constructor
      · rintro (rfl | ⟨pre, q, post, rfl, rfl⟩)
        · exact ⟨[], p, rest, rfl, rfl⟩
        · exact ⟨p :: pre, q, post, rfl, rfl⟩
      · rintro ⟨pre, q, post, hends, rfl⟩
        cases pre with
        | nil =>
            obtain ⟨rfl, rfl⟩ := List.cons.inj hends
            exact .inl rfl
        | cons p' pre =>
            obtain ⟨rfl, rfl⟩ := List.cons.inj hends
            exact .inr ⟨pre, q, post, rfl, rfl⟩

/-! ## What is announced -/

/-- The changes that a write of a contract announces. -/
def ensuing (s : Store) (d : Contract) : List Change :=
  let link := Link.ofContract? d
  let (after, changes) := (s.put d).relink link (s.endpoints link)
  ⟨d.id, if (s.contract? d.id).isSome then .update else .insert,
    (s.contract? d.id).map s.image, some (after.image d)⟩ :: changes

/-- What is written takes the place of what has its id. -/
theorem Sound.writeOver_of_write (h : s.Sound) (hw : s.write now mode c = .ok (d, t)) :
    t = s.writeOver d (s.contract? d.id) := by
  obtain ⟨e, -, ⟨found, hfound, -, rfl, rfl⟩ | ⟨hnone, rfl, rfl⟩⟩ := write_ok hw
  · have hthere : s.contract? found.id = some found :=
      h.contract?_eq_some.mpr ⟨h.existing? hfound, rfl⟩
    show _ = s.writeOver _ (s.contract? found.id)
    rw [hthere]
  · have hthere : s.contract? d.id = none := by
      rw [Store.existing?] at hnone
      split at hnone
      · cases hnone
      · exact hnone
    rw [hthere]

theorem Sound.pending_of_write (h : s.Sound) (hw : s.write now mode c = .ok (d, t)) :
    t.pending = s.pending ++ s.ensuing d := by
  have hover := h.writeOver_of_write hw
  subst hover
  have hpending : ((s.put d).relink (Link.ofContract? d)
      (s.endpoints (Link.ofContract? d))).1.pending = s.pending := pending_relink _
  exact congrArg (· ++ _) hpending

/-- A write of a link announces the link, and then what it connects. -/
theorem Sound.ensuing_of_link (h : s.Sound) (hw : s.write now mode c = .ok (d, t))
    (hl : Link.ofContract? d = some l) : s.ensuing d
      = ⟨d.id, if (s.contract? d.id).isSome then .update else .insert,
          (s.contract? d.id).map s.image, some (t.image d)⟩
        :: (Store.stampAll l ((s.put d).putLink l) (s.endpoints (some l))).2 := by
  have hover := h.writeOver_of_write hw
  subst hover
  rw [ensuing, Store.writeOver, hl]
  rfl

/-! ## Stores on the way -/

/-- The store on the way to what a write of a link leaves, when some of what the
    link connects has been stamped. -/
def halfway (s : Store) (d : Contract) (l : Link) (ends : List (Contract × Json)) :
    Store := (stampAll l ((s.put d).putLink l) ends).1

section

variable (h : s.Sound) (hw : s.write now mode c = .ok (d, t))

include h hw

theorem Sound.kept_written : d.Kept := by
  obtain ⟨e, he, ⟨found, hfound, -, rfl, -⟩ | ⟨-, rfl, -⟩⟩ := write_ok hw
  · exact kept_replacing now (kept_of_canonical he).1 (h.kept_of_mem (h.existing? hfound))
  · exact (kept_of_canonical he).1

theorem Sound.sound_halfway {ends : List (Contract × Json)}
    (hends : ∀ p ∈ ends, p.1 ∈ s.contracts) : (s.halfway d l ends).Sound := by
  have hput : ((s.put d).putLink l).Sound := (h.put (h.kept_written hw)).of_rows rfl
  exact hput.stampAll l fun p hp => h.kept_of_mem (hends p hp)

/-- The link is kept before the first stamp. -/
theorem Sound.edges_halfway (hl : Link.ofContract? d = some l)
    (ends : List (Contract × Json)) : (s.halfway d l ends).edges = t.edges := by
  have hover := h.writeOver_of_write hw
  subst hover
  rw [Store.writeOver, hl, halfway]
  exact (edges_stampAll _).trans (edges_stampAll _).symm

theorem Sound.rows_halfway (hl : Link.ofContract? d = some l) :
    t.rows = (s.halfway d l (s.endpoints (some l))).rows := by
  have hover := h.writeOver_of_write hw
  subst hover
  rw [Store.writeOver, hl, halfway]
  rfl

end

/-! ## What is active on the way -/

/-- A stamp that can be read makes nothing active or inactive. -/
theorem Sound.active_stamp (h : s.Sound) (hw : s.write now mode c = .ok (d, t))
    (hsound : u.Sound) (hu : Fates s u.rows d) (he : e ∈ s.contracts)
    (hread : ∃ back, (l.marked e).reread = some back)
    (hsame : u.Active e.id ↔ e.active = true) :
    (u.put (l.marked e)).Active id ↔ u.Active id := by
  have hkept := h.kept_of_mem he
  obtain ⟨linkedAt, hmarked⟩ := l.marked_eq e
  obtain ⟨back, hread⟩ := hread
  rw [hmarked] at hread ⊢
  have hput : (u.put { e with linkedAt := linkedAt }).Sound :=
    hsound.put ⟨hkept.id, hkept.slug, hkept.version, hkept.links⟩
  have htook (e : Contract) (he : e ∈ s.contracts) := h.id_eq_of_written hw he
  by_cases hid : id = e.id
  · subst hid
    have hrow : Dict.find? (u.put { e with linkedAt := linkedAt }).rows e.id
        = some (.ofContract { e with linkedAt := linkedAt }) := find?_put_self u _
    have hback : (u.put { e with linkedAt := linkedAt }).contract? e.id = some back := by
      rw [contract?, hrow, Option.bind_some, StoredRow.contents_ofContract, hread]
    rw [hsame, hput.active_iff, hback]
    have hactive := Contract.active_of_reread hread
    simp [hactive]
  · rw [hput.active_iff, hsound.active_iff, contract?, contract?,
      hu.find?_put_stamped h htook he hid]

theorem Sound.active_stampAll (h : s.Sound) (hw : s.write now mode c = .ok (d, t))
    (hl : Link.ofContract? d = some l) (hactive : l.active = true) (hsound : u.Sound)
    (hu : Fates s u.rows d) {ends : List (Contract × Json)}
    (hends : ∀ p ∈ ends, (p.1 ∈ s.contracts ∧ (l.fromId = p.1.id ∨ l.toId = p.1.id))
      ∧ (∃ back, (l.marked p.1).reread = some back)
      ∧ (u.Active p.1.id ↔ p.1.active = true)) :
    (Store.stampAll l u ends).1.Active id ↔ u.Active id := by
  induction ends generalizing u with
  | nil => rfl
  | cons p rest ih =>
      obtain ⟨⟨⟨he, hend⟩, hread, hsame⟩, hrest⟩ := List.forall_mem_cons.mp hends
      have hstep (id : String) : (u.put (l.marked p.1)).Active id ↔ u.Active id :=
        h.active_stamp hw hsound hu he hread hsame
      obtain ⟨name, hstamp⟩ := Link.stamp?_of_end hend
      have hput : (u.stamp l p.1).1 = u.put (l.marked p.1) := by
        rw [stamp_of_stamp? hactive hstamp, Link.marked_of_stamp? hactive hstamp]
      have htook (e : Contract) (he : e ∈ s.contracts) := h.id_eq_of_written hw he
      show (Store.stampAll l (u.stamp l p.1).1 rest).1.Active id ↔ _
      rw [hput, ih, hstep]
      · exact hput ▸ hsound.stamp (h.kept_of_mem he) l
      · rw [Link.marked_of_stamp? hactive hstamp]
        exact hu.put_stamped h htook he ⟨l, hl, hactive, hend⟩
      · intro q hq
        obtain ⟨hmem, hback, hbefore⟩ := hrest q hq
        exact ⟨hmem, hback, (hstep _).trans hbefore⟩

/-- What has another id has its row still when a contract was put. -/
theorem Sound.row_put (h : s.Sound) (hw : s.write now mode c = .ok (d, t))
    (he : e ∈ s.contracts) (hid : e.id ≠ d.id) :
    ∃ row, row.contents = some e ∧ Dict.find? s.rows e.id = some row
      ∧ Dict.find? (s.put d).rows e.id = some row := by
  obtain ⟨row, hrow, hcontents⟩ := h.row_of_mem he
  have same := StoredRow.sameIdentity hcontents
  exact ⟨row, hcontents, hrow, find?_put_keeps h.sorted hrow hid fun ⟨hslug, hversion⟩ =>
    hid (h.id_eq_of_written hw he (same.slug.trans hslug) (same.version.trans hversion))⟩

theorem Sound.contract?_put (h : s.Sound) (hw : s.write now mode c = .ok (d, t))
    (he : e ∈ s.contracts) (hid : e.id ≠ d.id) : (s.put d).contract? e.id = some e := by
  obtain ⟨row, hcontents, -, hrow⟩ := h.row_put hw he hid
  rw [contract?, hrow, Option.bind_some, hcontents]

section

variable (h : s.Sound) (hw : s.write now mode c = .ok (d, t))
  (hl : Link.ofContract? d = some l) (hloop : Links d d.id → s.contract? d.id = none)
  (hread : ∀ e ∈ s.contracts, Links d e.id → ∃ back, t.contract? e.id = some back)

include h hw hl hloop hread

/-- On the way is active what is active in the end. -/
theorem Sound.active_halfway {ends : List (Contract × Json)}
    (hends : ∀ p ∈ ends, p ∈ s.endpoints (some l)) :
    (s.halfway d l ends).Active id ↔ t.Active id := by
  have hcontracts : t.contracts = (s.halfway d l (s.endpoints (some l))).contracts := by
    rw [contracts, contracts, h.rows_halfway hw hl]
  rw [Active, Active, hcontracts, ← Active, ← Active]
  cases hactive : l.active with
  | false =>
      rw [halfway, halfway, stampAll_inactive hactive, stampAll_inactive hactive]
  | true =>
      have hput : ((s.put d).putLink l).Sound := (h.put (h.kept_written hw)).of_rows rfl
      have hfates : Fates s (s.put d).rows d :=
        Fates.put_written h fun e he => h.id_eq_of_written hw he
      have hstart {part : List (Contract × Json)}
          (hpart : ∀ p ∈ part, p ∈ s.endpoints (some l)) :
          (s.halfway d l part).Active id ↔ ((s.put d).putLink l).Active id := by
        refine h.active_stampAll hw hl hactive hput hfates fun p hp => ?_
        obtain ⟨he, hend⟩ := h.mem_endpoints (hpart p hp)
        have hlinks : Links d p.1.id := ⟨l, hl, hactive, hend⟩
        have hthere : s.contract? p.1.id = some p.1 := h.contract?_eq_some.mpr ⟨he, rfl⟩
        refine ⟨⟨he, hend⟩, ?_, ?_⟩
        · obtain ⟨back, hback⟩ := hread p.1 he hlinks
          obtain ⟨stamped, hstamp, hstamped⟩ := h.contract?_of_end hw hl hactive hthere hend
          rw [Link.marked_of_stamp? hactive hstamp]
          exact ⟨back, hstamped.symm.trans hback⟩
        · have hid : p.1.id ≠ d.id := by
            intro hid
            rw [hid] at hlinks hthere
            cases hthere.symm.trans (hloop hlinks)
          have hkept : ((s.put d).putLink l).contract? p.1.id = some p.1 :=
            h.contract?_put hw he hid
          simp [hput.active_iff, hkept]
      rw [hstart hends, hstart fun p hp => hp]

/-- On the way a contract sees what it sees in the end. -/
theorem Sound.sees_halfway {ends : List (Contract × Json)}
    (hends : ∀ p ∈ ends, p ∈ s.endpoints (some l)) :
    (s.halfway d l ends).Sees id name other ↔ t.Sees id name other := by
  rw [sees_iff, sees_iff, h.active_halfway hw hl hloop hread hends,
    h.edges_halfway hw hl]

/-- What the link connects is announced with what it saw before the write and
    sees after it. -/
theorem Sound.announces_end (he : e ∈ s.contracts)
    (hend : l.fromId = e.id ∨ l.toId = e.id) :
    ∃ ch ∈ s.ensuing d, Relates s t e.id ch := by
  obtain ⟨pre, post, hends⟩ := List.append_of_mem (h.mem_endpoints_of_end he hend)
  have hpart : ∀ p ∈ pre ++ [(e, s.image e)], p ∈ s.endpoints (some l) := by
    intro p hp
    rw [hends]
    exact List.mem_append.mpr ((List.mem_append.mp hp).imp_right fun hp =>
      List.mem_cons.mpr (.inl (List.mem_singleton.mp hp)))
  refine ⟨marking l (s.halfway d l (pre ++ [(e, s.image e)])) (e, s.image e), ?_, ?_⟩
  · rw [h.ensuing_of_link hw hl]
    exact List.mem_cons_of_mem _ (mem_stampAll.mpr ⟨pre, _, post, hends, rfl⟩)
  · have hsound : (s.halfway d l (pre ++ [(e, s.image e)])).Sound :=
      h.sound_halfway hw fun p hp => (h.mem_endpoints (hpart p hp)).1
    refine ⟨rfl, rfl, ⟨_, rfl, fun name other => h.mem_shownIds⟩,
      ⟨_, rfl, fun name other => ?_⟩⟩
    rw [hsound.mem_shownIds, Link.id_marked, h.sees_halfway hw hl hloop hread hpart]

end

/-- What a link takes the place of is announced so, too. -/
theorem Sound.announces_written (h : s.Sound) (hw : s.write now mode c = .ok (d, t))
    (hl : Link.ofContract? d = some l) (he : s.contract? d.id = some e) :
    ∃ ch ∈ s.ensuing d, Relates s t d.id ch := by
  rw [h.ensuing_of_link hw hl, he]
  obtain ⟨-, hid⟩ := h.contract?_eq_some.mp he
  refine ⟨_, List.mem_cons_self, rfl, rfl, ⟨_, rfl, fun name other => ?_⟩,
    ⟨_, rfl, fun name other => (h.write hw).mem_shownIds⟩⟩
  rw [h.mem_shownIds, hid]

/-- Nothing else is announced. -/
theorem Sound.id_of_ensuing (h : s.Sound) (hw : s.write now mode c = .ok (d, t))
    (hl : Link.ofContract? d = some l) (hch : ch ∈ s.ensuing d) :
    ch.id = d.id ∨ l.fromId = ch.id ∨ l.toId = ch.id := by
  rw [h.ensuing_of_link hw hl] at hch
  rcases List.mem_cons.mp hch with rfl | hch
  · exact .inl rfl
  · obtain ⟨pre, p, post, hends, rfl⟩ := mem_stampAll.mp hch
    refine .inr (h.mem_endpoints (e := p) ?_).2
    rw [hends]
    exact List.mem_append_right _ List.mem_cons_self

/-! ## Contracts whose links change -/

/-- Whether what is linked to a contract changes with the kept links, in the one
    or the other of two stores. -/
def Rewired (s t : Store) (id : String) : Prop :=
  ∃ name, ({ s with edges := t.edges } : Store).linked id name ≠ s.linked id name
    ∨ t.linked id name ≠ ({ t with edges := s.edges } : Store).linked id name

/-- What is linked to a contract changes only if the contract is at an end of the
    written link, or of the link that was kept in its place. -/
theorem end_of_rewired (hw : s.write now mode c = .ok (d, t))
    (hl : Link.ofContract? d = some l) (hrewired : s.Rewired t id) :
    (l.fromId = id ∨ l.toId = id)
      ∨ ∃ e, (d.id, e) ∈ s.edges ∧ (e.fromId = id ∨ e.toId = id) := by
  by_contra hno
  obtain ⟨hnew, hold⟩ := not_or.mp hno
  have hsame (u : Store) (name : String) :
      ({ u with edges := t.edges } : Store).linkedRows id name
        = ({ u with edges := s.edges } : Store).linkedRows id name := by
    let row (p : String × Edge) : Option StoredRow :=
      if p.2.attaches id name then
        (Dict.find? u.rows (p.2.farEnd id)).filter fun row => row.written.active
      else none
    have hnone (e : Edge) (he : ¬(e.fromId = id ∨ e.toId = id)) : row (d.id, e) = none :=
      if_neg fun hattaches => he (Edge.end_of_attaches hattaches)
    have hkept (e : Edge) (he : (d.id, e) ∈ s.edges) : row (d.id, e) = none :=
      hnone e fun hend => hold ⟨e, he, hend⟩
    have hlink : row (d.id, .ofLink l) = none := hnone (.ofLink l) hnew
    show t.edges.filterMap row = s.edges.filterMap row
    rw [edges_of_write hw, hl]
    dsimp only
    split
    · exact Dict.filterMap_insert hlink hkept
    · exact Dict.filterMap_erase hkept
  obtain ⟨name, hbefore | hafter⟩ := hrewired
  · exact hbefore (by rw [linked, hsame, ← linked])
  · exact hafter (by rw [linked, linked, ← hsame])

end Store

end LinkedContracts
