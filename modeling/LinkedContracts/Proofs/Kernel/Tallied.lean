import LinkedContracts.Proofs.Kernel.Lasting
import LinkedContracts.Proofs.Kernel.Tied
import LinkedContracts.Proofs.Store.Stamps

/-! # The kept links and the stored ones

    The links that are kept are the active ones among the stored contracts.  A
    write keeps them in step under every id, with two exceptions.  Where a
    contract that is no link takes the place of an active link, what was kept of
    that link stays.  And where a link to itself takes the place of a contract,
    the link is kept and the contract is put back.

    Both are told under the assumption that a row says what link was put in it;
    one that cannot be read does not. -/

namespace LinkedContracts

/-- What is kept of a contract that is an active link. -/
def Contract.edge? (c : Contract) : Option Edge :=
  ((Link.ofContract? c).filter Link.active).map Edge.ofLink

/-- Whether the link that was put in a row is not read back from it. -/
def Contract.Misread (c : Contract) : Prop :=
  c.reread.bind Contract.edge? ≠ c.edge?

theorem Contract.edge?_of_no_link {c : Contract} (h : Link.ofContract? c = none) :
    c.edge? = none := by
  rw [edge?, h]
  rfl

/-- A stamp on a link changes nothing of what is kept of it. -/
theorem Link.edge?_of_stamp? {l : Link} {c stamped : Contract}
    (h : l.stamp? c = some stamped) : stamped.edge? = c.edge? := by
  obtain ⟨linked, -, rfl⟩ := Option.map_eq_some_iff.mp h
  rfl

namespace Store

variable {s t u : Store} {c d : Contract} {id : String} {now : Instant}
  {mode : WriteMode}

/-- Under an id the link that is stored is kept, and no other. -/
def Tallies (s : Store) (id : String) : Prop :=
  ∀ e, (id, e) ∈ s.edges ↔ ∃ c ∈ s.contracts, c.id = id ∧ c.edge? = some e

/-- How a write leaves a link that is not stored. -/
inductive Strands (s : Store) (d : Contract) : String → Prop where
  /-- What is no link takes the place of an active link. -/
  | unlinked {found : Contract} (hfound : s.contract? d.id = some found)
      (hlinked : found.edge? ≠ none) (hlink : Link.ofContract? d = none) :
      Strands s d d.id
  /-- A link to itself takes the place of a contract that is put back. -/
  | restored {found : Contract} (hfound : s.contract? d.id = some found)
      (hloop : Links d d.id) (hother : found.edge? ≠ d.edge?) : Strands s d d.id

/-- How a write puts a row from which its link is not read back. -/
inductive Misreads (s : Store) (d : Contract) : String → Prop where
  | written (h : d.Misread) : Misreads s d d.id
  | stamped {l : Link} {e stamped : Contract} {id : String}
      (hlink : Link.ofContract? d = some l) (he : s.contract? id = some e)
      (hstamp : l.stamp? e = some stamped) (h : stamped.Misread) : Misreads s d id

/-! ## Looking up -/

theorem Sound.tallies_iff (h : s.Sound) (hedges : Dict.Sorted s.edges) :
    s.Tallies id ↔ Dict.find? s.edges id = (s.contract? id).bind Contract.edge? := by
  have hkept (e : Edge) : (id, e) ∈ s.edges ↔ Dict.find? s.edges id = some e :=
    hedges.find?_eq_some.symm
  have hstored (e : Edge) : (∃ c ∈ s.contracts, c.id = id ∧ c.edge? = some e)
      ↔ (s.contract? id).bind Contract.edge? = some e := by
    rw [Option.bind_eq_some_iff]
    constructor
    · rintro ⟨c, hc, hid, he⟩
      exact ⟨c, h.contract?_eq_some.mpr ⟨hc, hid⟩, he⟩
    · rintro ⟨c, hc, he⟩
      obtain ⟨hmem, hid⟩ := h.contract?_eq_some.mp hc
      exact ⟨c, hmem, hid, he⟩
  simp only [Tallies, hkept, hstored]
  constructor
  · exact Option.ext
  · intro hsame e
    rw [hsame]

theorem Tallies.same (hid : s.Tallies id) (h : Kernel.SameContents s t) :
    t.Tallies id := by
  intro e
  rw [← h.2, hid e, contracts, contracts, h.1]

/-! ## Writing -/

theorem sorted_edges_of_write (hedges : Dict.Sorted s.edges)
    (hw : s.write now mode c = .ok (d, t)) : Dict.Sorted t.edges := by
  rw [edges_of_write hw]
  split
  · exact hedges
  · split
    · exact hedges.insert _ _
    · exact hedges.erase _

theorem find?_edges_of_ne (hw : s.write now mode c = .ok (d, t)) (hid : id ≠ d.id) :
    Dict.find? t.edges id = Dict.find? s.edges id := by
  rw [edges_of_write hw]
  split
  · rfl
  · split
    · exact Dict.find?_insert_of_ne _ _ (Ne.symm hid)
    · exact Dict.find?_erase_of_ne _ (Ne.symm hid)

/-- Under the id of a link that was written is what is kept of it. -/
theorem find?_edges_of_link (hedges : Dict.Sorted s.edges)
    (hw : s.write now mode c = .ok (d, t)) {l : Link} (hl : Link.ofContract? d = some l) :
    Dict.find? t.edges d.id = d.edge? := by
  rw [edges_of_write hw, hl, Contract.edge?, hl]
  cases hactive : l.active with
  | true => simp [Option.filter, hactive]
  | false => simp [Option.filter, hactive, hedges.find?_erase_self]

section

variable (h : s.Sound) (hw : s.write now mode c = .ok (d, t))
  (hread : ¬s.Misreads d id)

include h hw hread

/-- What a link connects is stored as the link it was, if it was one. -/
theorem Sound.edge?_of_links (hlinks : Links d id) {e : Contract}
    (he : s.contract? id = some e) :
    (t.contract? id).bind Contract.edge? = e.edge? := by
  obtain ⟨l, hl, hactive, hend⟩ := hlinks
  obtain ⟨stamped, hstamp, hback⟩ := h.contract?_of_end hw hl hactive he hend
  have hsame : stamped.reread.bind Contract.edge? = stamped.edge? :=
    Decidable.not_not.mp fun hmisread => hread (.stamped hl he hstamp hmisread)
  rw [hback, hsame, Link.edge?_of_stamp? hstamp]

/-- A write keeps stored and kept links in step under every other id. -/
theorem Sound.tallies_of_ne (hedges : Dict.Sorted s.edges) (htallies : s.Tallies id)
    (hid : id ≠ d.id) : t.Tallies id := by
  rw [h.tallies_iff hedges] at htallies
  rw [(h.write hw).tallies_iff (sorted_edges_of_write hedges hw),
    find?_edges_of_ne hw hid, htallies]
  by_cases hlinks : Links d id
  · cases he : s.contract? id with
    | none => rw [h.contract?_of_write hw (.inr he), if_neg hid, he]
    | some e => rw [h.edge?_of_links hw hread hlinks he, Option.bind_some]
  · rw [h.contract?_of_write hw (.inl hlinks), if_neg hid]

end

section

variable (h : s.Sound) (hw : s.write now mode c = .ok (d, t))
  (hread : ¬s.Misreads d d.id)

include h hw hread

/-- Where a contract is put back, its link is stored, and that of the written one
    is kept. -/
theorem Sound.tallies_of_loop (hedges : Dict.Sorted s.edges) (hloop : Links d d.id)
    {found : Contract} (hfound : s.contract? d.id = some found) :
    t.Tallies d.id ↔ ¬s.Strands d d.id := by
  obtain ⟨l, hl, -⟩ := id hloop
  rw [(h.write hw).tallies_iff (sorted_edges_of_write hedges hw),
    h.edge?_of_links hw hread hloop hfound, find?_edges_of_link hedges hw hl]
  constructor
  · rintro hsame (⟨-, -, hnone⟩ | ⟨hfound', -, hother⟩)
    · cases hl.symm.trans hnone
    · obtain rfl := Option.some.inj (hfound.symm.trans hfound')
      exact hother hsame.symm
  · intro hkept
    refine Decidable.byContradiction fun hother => ?_
    exact hkept (.restored hfound hloop (Ne.symm hother))

/-- Where the written contract is stored, so is its link; if it is none, what was
    kept before is kept. -/
theorem Sound.tallies_of_written (hedges : Dict.Sorted s.edges)
    (htallies : s.Tallies d.id)
    (hstored : ¬Links d d.id ∨ s.contract? d.id = none) :
    t.Tallies d.id ↔ ¬s.Strands d d.id := by
  have hback : d.reread.bind Contract.edge? = d.edge? :=
    Decidable.not_not.mp fun hmisread => hread (.written hmisread)
  have hunrestored {found : Contract} (hfound : s.contract? d.id = some found) :
      ¬Links d d.id := by
    rcases hstored with hunlinked | hnone
    · exact hunlinked
    · cases hfound.symm.trans hnone
  rw [h.tallies_iff hedges] at htallies
  rw [(h.write hw).tallies_iff (sorted_edges_of_write hedges hw),
    h.contract?_of_write hw hstored, if_pos rfl, hback]
  cases hl : Link.ofContract? d with
  | some l =>
      rw [find?_edges_of_link hedges hw hl]
      refine iff_of_true rfl ?_
      rintro (⟨-, -, hnone⟩ | ⟨hfound, hloop, -⟩)
      · cases hl.symm.trans hnone
      · exact hunrestored hfound hloop
  | none =>
      rw [edges_of_write hw, hl, htallies, Contract.edge?_of_no_link hl]
      constructor
      · rintro hnone (⟨hfound, hlinked, -⟩ | ⟨hfound, hloop, -⟩)
        · rw [hfound] at hnone
          exact hlinked hnone
        · exact hunrestored hfound hloop
      · intro hkept
        refine Option.bind_eq_none_iff.mpr fun found hfound => ?_
        refine Decidable.byContradiction fun hlinked => ?_
        exact hkept (.unlinked hfound hlinked hl)

end

/-- A write keeps stored and kept links in step, unless it strands one. -/
theorem Sound.tallies_of_write (h : s.Sound) (hedges : Dict.Sorted s.edges)
    (hw : s.write now mode c = .ok (d, t)) (htallies : s.Tallies id)
    (hread : ¬s.Misreads d id) : t.Tallies id ↔ ¬s.Strands d id := by
  by_cases hid : id = d.id
  · subst hid
    by_cases hloop : Links d d.id
    · cases hfound : s.contract? d.id with
      | none => exact h.tallies_of_written hw hread hedges htallies (.inr hfound)
      | some found => exact h.tallies_of_loop hw hread hedges hloop hfound
    · exact h.tallies_of_written hw hread hedges htallies (.inl hloop)
  · refine iff_of_true (h.tallies_of_ne hw hread hedges htallies hid) ?_
    rintro (⟨-, -, -⟩ | ⟨-, -, -⟩)
    · exact hid rfl
    · exact hid rfl

/-! ## Runs -/

theorem Emits.sorted_edges {changes : List Change} (h : Emits s changes t)
    (hedges : Dict.Sorted s.edges) : Dict.Sorted t.edges := by
  induction h with
  | same h => rwa [← h.2]
  | written _ hw hsame ih =>
      rw [← hsame.2]
      exact sorted_edges_of_write ih hw

/-- Whether the write of a contract puts a link out of step: it leaves one that is
    not stored, or puts one in a row from which it is not read back. -/
def Unsettles (s : Store) (d : Contract) (id : String) : Prop :=
  s.Strands d id ∨ s.Misreads d id

/-- Stored and kept links stay in step under an id, unless one of the writes did not
    keep them so. -/
theorem Emits.tallies {changes : List Change} (h : Emits s changes t) (hs : s.Sound)
    (hedges : Dict.Sorted s.edges) (htallies : s.Tallies id) :
    t.Tallies id ∨ Wrote s changes t fun u d => u.Tallies id ∧ u.Unsettles d id := by
  have hlasts := h.lasts (P := fun u => Dict.Sorted u.edges ∧ u.Tallies id)
    (B := fun u d => u.Unsettles d id) hs ⟨hedges, htallies⟩
    (fun hsame hu => ⟨hsame.2 ▸ hu.1, hu.2.same hsame⟩) ?_
  · exact hlasts.imp And.right fun hwrote =>
      hwrote.imp fun _ _ hbroke => ⟨hbroke.1.2, hbroke.2⟩
  · rintro u v now mode c d hu hw ⟨husorted, hutallies⟩ hkept
    have hread : ¬u.Misreads d id := fun hmisreads => hkept (.inr hmisreads)
    have hstrands : ¬u.Strands d id := fun hstrands => hkept (.inl hstrands)
    exact ⟨sorted_edges_of_write husorted hw,
      (hu.tallies_of_write husorted hw hutallies hread).mpr hstrands⟩

end Store

namespace Kernel

open Store

variable {k : Kernel}

/-- The links that are kept are the active ones among the stored contracts, each
    once, but under ids where a write in the log put them out of step.  From then on
    a write keeps them in step if and only if it strands none. -/
theorem tallies_of_reachable [TextLibrary] (hk : Reachable k) :
    Dict.Sorted k.store.edges
      ∧ (∀ id, k.store.Tallies id
        ∨ Wrote {} k.log k.store fun s d => s.Tallies id ∧ s.Unsettles d id)
      ∧ ∀ (now : Instant) (mode : WriteMode) (c d : Contract) (t : Store) (id : String),
        k.store.write now mode c = .ok (d, t) → k.store.Tallies id →
        ¬k.store.Misreads d id → (t.Tallies id ↔ ¬k.store.Strands d id) := by
  have hempty : Dict.Sorted ({} : Store).edges := Dict.sorted_nil
  have hnothing (id : String) : ({} : Store).Tallies id := by
    intro e
    simp [contracts]
  have hsorted := hk.emits.sorted_edges hempty
  refine ⟨hsorted, fun id => hk.emits.tallies sound_empty hempty (hnothing id), ?_⟩
  intro now mode c d t id hw htallies hread
  exact hk.sound.store.tallies_of_write hsorted hw htallies hread

/-! ## A link that becomes a card -/

theorem store_liked : liked.store
    = ⟨[("liking", .ofContract liking)], [("liking", likingEdge)], []⟩ := by
  obtain ⟨announced, h⟩ := liked_eq
  rw [h]

theorem liked_reachable : Reachable liked :=
  have hempty : create {} empty.supply = .ok empty := rfl
  .ran (.write _ _) (.created hempty)

theorem contract?_liked : liked.store.contract? "liking" = some liking := by
  have hrow : Dict.find? liked.store.rows "liking" = some (.ofContract liking) := by
    rw [store_liked]
    rfl
  rw [contract?, hrow, Option.bind_some, StoredRow.contents_ofContract, reread_liking]

/-- Nothing but the link is stored. -/
theorem id_of_liked {c : Contract} {id : String}
    (h : liked.store.contract? id = some c) : id = "liking" := by
  obtain ⟨row, hrow, -⟩ := row_of_contract? h
  rw [store_liked] at hrow
  exact congrArg Prod.fst (List.mem_singleton.mp hrow)

theorem edge?_liking : liking.edge? = some likingEdge := rfl

theorem tallies_liked : liked.store.Tallies "liking" := by
  have hedges : Dict.Sorted liked.store.edges := by
    rw [store_liked]
    exact List.pairwise_singleton _ _
  rw [liked_reachable.sound.store.tallies_iff hedges, contract?_liked, store_liked]
  rfl

/-- A card with the id, the slug and the version of the link. -/
def unliked : Contract := { liking with type := "card@1.0.0" }

theorem existing?_unliked : liked.store.existing? unliked = some liking := by
  have hsound := liked_reachable.sound.store
  exact hsound.existing?_eq_some.mpr
    ⟨(hsound.contract?_eq_some.mp contract?_liked).1, .inl ⟨rfl, rfl⟩⟩

/-- The card takes the place of the link, and the link is kept. -/
theorem write_unliked : ∃ d t,
    liked.store.write liked.supply.now .upsert unliked = .ok (d, t)
      ∧ d.id = "liking" ∧ d.type = "card@1.0.0" ∧ t.edges = liked.store.edges := by
  have hcanonical : canonical unliked = .ok unliked :=
    Store.canonical_first rfl rfl rfl rfl
  obtain ⟨t, hwrite, -, hedges⟩ := Store.write_over hcanonical existing?_unliked
    (ofContract?_of_card rfl)
  exact ⟨_, t, hwrite, rfl, rfl, hedges⟩

/-- What is read back from the row of a card is no link. -/
theorem edge?_reread_card {c d : Contract} (hd : d.type = "card@1.0.0")
    (hc : d.reread = some c) : c.edge? = none := by
  have htype := (Contract.sameIdentity_of_reread hc).type.trans hd
  exact Contract.edge?_of_no_link (ofContract?_of_card htype)

theorem not_misread_card {d : Contract} (hd : d.type = "card@1.0.0") : ¬d.Misread := by
  intro hmisread
  apply hmisread
  rw [Contract.edge?_of_no_link (ofContract?_of_card hd)]
  exact Option.bind_eq_none_iff.mpr fun c hc => edge?_reread_card hd hc

/-- The link is out of step once the card has taken its place. -/
theorem not_tallies_unliked : ∃ d t,
    liked.store.write liked.supply.now .upsert unliked = .ok (d, t)
      ∧ ¬t.Tallies "liking" := by
  obtain ⟨d, t, hwrite, hid, htype, -⟩ := write_unliked
  have hlink : Link.ofContract? d = none := ofContract?_of_card htype
  have hbefore := tallies_liked
  have hfound := contract?_liked
  rw [← hid] at hbefore hfound ⊢
  have hstrands : liked.store.Strands d d.id := by
    refine .unlinked hfound ?_ hlink
    simp [edge?_liking]
  have hread : ¬liked.store.Misreads d d.id := by
    intro hmisreads
    cases hmisreads with
    | written hmisread => exact not_misread_card htype hmisread
    | stamped hl => cases hlink.symm.trans hl
  refine ⟨d, t, hwrite, fun hafter => ?_⟩
  exact ((tallies_of_reachable liked_reachable).2.2 _ _ _ _ _ _ hwrite hbefore
    hread).mp hafter hstrands

/-- The link to the card is kept although nothing that is stored is a link. -/
theorem card_keeps_edge :
    let after := ((write .upsert unliked).run liked).2
    Reachable after ∧ ("liking", likingEdge) ∈ after.store.edges
      ∧ ∀ c ∈ after.store.contracts, c.edge? = none := by
  obtain ⟨d, t, hwrite, hid, htype, hedges⟩ := write_unliked
  have hcards : ∀ c ∈ t.contracts, c.edge? = none := by
    intro c hc
    have hsound := liked_reachable.sound.store
    have hunlinked : ¬Links d c.id := by
      rintro ⟨l, hl, -⟩
      cases (ofContract?_of_card htype).symm.trans hl
    have hfound := (hsound.write hwrite).contract?_eq_some.mpr ⟨hc, rfl⟩
    rw [hsound.contract?_of_write hwrite (.inl hunlinked)] at hfound
    by_cases hsame : c.id = d.id
    · rw [if_pos hsame] at hfound
      exact edge?_reread_card htype hfound
    · -- nothing but the link was stored
      rw [if_neg hsame] at hfound
      exact absurd ((id_of_liked hfound).trans hid.symm) hsame
  refine ⟨.ran (.write _ _) liked_reachable, ?_, ?_⟩
  · rw [write_run depth_liked hwrite]
    show ("liking", likingEdge) ∈ t.edges
    rw [hedges, store_liked]
    exact List.mem_singleton_self _
  · rw [write_run depth_liked hwrite]
    exact hcards

end Kernel

end LinkedContracts
