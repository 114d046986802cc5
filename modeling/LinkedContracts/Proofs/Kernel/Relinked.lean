import LinkedContracts.Proofs.Kernel.Logged
import LinkedContracts.Proofs.Kernel.Readback

/-! # Contracts whose links change

    What is linked to a contract changes when a link is written over another one,
    for the ends of both.  Announced are the ends of the new link: each with what
    was linked to it, and what is linked to it then.  Not announced is a contract
    at an end of the old link that the new one leaves. -/

namespace LinkedContracts

namespace Kernel

open Store

variable {k l : Kernel} {c d : Contract} {mode : WriteMode}

/-- A contract whose links change when a link is written is announced with what
    it saw before and what it sees after, unless it was an end of what the link
    takes the place of and is none of the link; then it is not announced at all.

    The link must not be a link to itself in the place of a contract, and what it
    connects must be read back from its rows. -/
theorem announced_of_rewired [TextLibrary] {link : Link} (hk : Reachable k)
    (hw : (write mode c).run k = (.ok d, l)) (hlink : Link.ofContract? d = some link)
    (hloop : Links d d.id → k.store.contract? d.id = none)
    (hread : ∀ e ∈ k.store.contracts, Links d e.id →
      ∃ back, l.store.contract? e.id = some back) :
    ∃ changes, l.log = k.log ++ changes
      ∧ (k.depth = 0 → l.announced = k.announced ++ changes)
      ∧ ∀ e ∈ k.store.contracts, k.store.Rewired l.store e.id →
        (∃ ch ∈ changes, Relates k.store l.store e.id ch)
          ∨ (∃ edge, (d.id, edge) ∈ k.store.edges ∧ (edge.fromId = e.id ∨ edge.toId = e.id))
            ∧ e.id ≠ d.id ∧ link.fromId ≠ e.id ∧ link.toId ≠ e.id
            ∧ ∀ ch ∈ changes, ch.id ≠ e.id := by
  have hl : Reachable l := by
    have := Reachable.ran (.write mode c) hk
    rwa [hw] at this
  have hsound := hk.sound.store
  obtain ⟨t, pending, hwrite, hstore, hlog⟩ := log_of_write hw
  rw [hsound.pending_of_write hwrite, ← List.append_assoc, ← log] at hlog
  rw [hstore] at hread ⊢
  refine ⟨k.store.ensuing d, hlog, fun hdepth => ?_, fun e he hrewired => ?_⟩
  · have hdepth' : l.depth = 0 := by
      have := depth_write mode c k
      rwa [hw, hdepth] at this
    rw [← hl.settled.log_eq hdepth', hlog, hk.settled.log_eq hdepth]
  by_cases hid : e.id = d.id
  · left
    have hthere : k.store.contract? d.id = some e := hsound.contract?_eq_some.mpr ⟨he, hid⟩
    obtain ⟨ch, hch, hrelates⟩ := hsound.announces_written hwrite hlink hthere
    rw [hid]
    exact ⟨ch, hch, hrelates.pending _⟩
  by_cases hend : link.fromId = e.id ∨ link.toId = e.id
  · obtain ⟨ch, hch, hrelates⟩ := hsound.announces_end hwrite hlink hloop hread he hend
    exact .inl ⟨ch, hch, hrelates.pending _⟩
  · obtain ⟨hfrom, hto⟩ := not_or.mp hend
    refine .inr ⟨(end_of_rewired hwrite hlink hrewired).resolve_left hend, hid, hfrom, hto,
      fun ch hch hsame => ?_⟩
    rcases hsound.id_of_ensuing hwrite hlink hch with hwritten | hends
    · exact hid (hsame.symm.trans hwritten)
    · exact hend (hsame ▸ hends)

/-! ## A link that is written first -/

/-- What the link of the reader to the card connects can be read once it was
    written. -/
theorem read_liking [TextLibrary] {t : Store}
    (hw : (guarded anonymous).store.write (guarded anonymous).supply.now .insert liking
      = .ok (liking, t)) :
    ∀ e ∈ (guarded anonymous).store.contracts, Links liking e.id →
      ∃ back, t.contract? e.id = some back := by
  have hlasts : ∀ e ∈ (guarded anonymous).store.contracts, e.Lasts :=
    forall_mem_guarded reread_anonymous ⟨[], reread_card⟩ ⟨[], reread_anonymous⟩
  have hsound := (guarded_reachable anonymous).sound.store
  intro e he hlinks
  obtain ⟨stamps, hback⟩ := hsound.contract?_of_links hw ⟨[], reread_liking⟩ hlinks
    (hsound.contract?_eq_some.mpr ⟨he, rfl⟩) (hlasts e he)
  exact ⟨_, hback⟩

/-- The reader is announced when the link to the card is written. -/
theorem announced_reader : ∃ l changes,
    (write .insert liking).run (guarded anonymous) = (.ok liking, l)
      ∧ l.announced = (guarded anonymous).announced ++ changes
      ∧ ∃ ch ∈ changes, Relates (guarded anonymous).store l.store "reader" ch := by
  obtain ⟨t, hwrite⟩ := write_liking
  have hlink : Link.ofContract? liking = some ⟨"liking", "likes", "is liked by",
      "reader", "card", true, ⟨0, 0⟩⟩ := rfl
  have hedges : t.edges = [("liking", likingEdge)] := by
    rw [edges_of_write hwrite, hlink, edges_guarded]
    rfl
  have hrewired : (guarded anonymous).store.Rewired { t with pending := [] } "reader" := by
    refine ⟨"likes", .inl fun hsame => ?_⟩
    have hsound : ({ (guarded anonymous).store with edges := t.edges } : Store).Sound :=
      (guarded_reachable anonymous).sound.store.of_rows rfl
    have hcard : "card" ∈ (({ (guarded anonymous).store with edges := t.edges }
        : Store).linked "reader" "likes").map Contract.id ↔ _ := hsound.mem_linked
    rw [hsame, linked_of_no_edges (edges_guarded anonymous)] at hcard
    have hmem : card ∈ ({ (guarded anonymous).store with edges := t.edges }
        : Store).contracts := by
      simpa only [Store.contracts] using card_mem_guarded reread_anonymous
    refine absurd (hcard.mpr ⟨⟨card, hmem, rfl, rfl⟩, ?_⟩) List.not_mem_nil
    rw [hedges]
    exact ⟨_, List.mem_singleton_self _, by decide, rfl⟩
  have hrun := write_run (depth_guarded anonymous) hwrite
  obtain ⟨changes, -, hannounced, hall⟩ := announced_of_rewired (guarded_reachable anonymous)
    hrun hlink (fun _ => contract?_liking anonymous) fun e he => read_liking hwrite e he
  refine ⟨_, changes, hrun, hannounced (depth_guarded anonymous), ?_⟩
  rcases hall _ (reader_mem_guarded reread_anonymous) hrewired with
    hchange | ⟨-, -, hfrom, -⟩
  · exact hchange
  · exact absurd rfl hfrom

/-! ## A link that is moved -/

/-- The link of the reader, to something that is not there. -/
def moved : Contract :=
  { liking with
    data := .object
      [("from", .string "reader"), ("inverseName", .string "is liked by"),
       ("to", .string "nothing")] }

theorem existing?_moved : (tied anonymous).store.existing? moved = some liking := by
  refine (tied_reachable anonymous).sound.store.existing?_eq_some.mpr ⟨?_, .inl ⟨rfl, rfl⟩⟩
  rw [contracts_tied reread_anonymous]
  exact List.mem_cons_of_mem _ List.mem_cons_self

theorem write_moved : ∃ d t,
    (tied anonymous).store.write (tied anonymous).supply.now .upsert moved = .ok (d, t)
      ∧ d.id = "liking"
      ∧ Link.ofContract? d
        = some ⟨"liking", "likes", "is liked by", "reader", "nothing", true, ⟨0, 0⟩⟩ :=
  ⟨_, _, write_existing (Store.canonical_first rfl rfl rfl rfl) existing?_moved _, rfl, rfl⟩

/-- The card is not announced when the link of the reader is moved away from
    it. -/
theorem card_unannounced :
    let after := ((write .upsert moved).run (tied anonymous)).2
    Reachable (tied anonymous) ∧ card ∈ (tied anonymous).store.contracts
      ∧ (tied anonymous).store.linked "card" "is liked by" = [reader anonymous]
      ∧ after.store.linked "card" "is liked by" = []
      ∧ (tied anonymous).store.Rewired after.store "card"
      ∧ ∃ changes, after.announced = (tied anonymous).announced ++ changes
        ∧ ∀ ch ∈ changes, ch.id ≠ "card" := by
  have hsound := (tied_reachable anonymous).sound.store
  have hdepth : (tied anonymous).depth = 0 := (depth_write _ _ _).trans (depth_met _)
  obtain ⟨d, t, hwrite, hid, hlink⟩ := write_moved
  have hedges : t.edges
      = [("liking", ⟨"likes", "is liked by", "reader", "nothing"⟩)] := by
    rw [edges_of_write hwrite, hlink, hid, store_tied]
    rfl
  have hbefore : (tied anonymous).store.linked "card" "is liked by" = [reader anonymous] :=
    linked_tied reread_anonymous _ _
  have hafter (u : Store) (hu : u.edges = t.edges) : u.linked "card" "is liked by" = [] := by
    have hapart : (⟨"likes", "is liked by", "reader", "nothing"⟩ : Edge).attaches "card"
        "is liked by" = false := by decide
    simp [Store.linked, linkedRows, hu, hedges, hapart]
  rw [write_run hdepth hwrite]
  refine ⟨tied_reachable anonymous, ?_, hbefore, hafter _ rfl, ⟨"is liked by", .inl ?_⟩, ?_⟩
  · rw [contracts_tied reread_anonymous]
    exact List.mem_cons_self
  · rw [hafter { (tied anonymous).store with edges := t.edges } rfl, hbefore]
    exact List.cons_ne_nil _ _ ∘ Eq.symm
  · have hpending : (tied anonymous).store.pending = [] := by rw [store_tied]
    refine ⟨(tied anonymous).store.ensuing d, ?_, fun ch hch hcard => ?_⟩
    · rw [hsound.pending_of_write hwrite, hpending, List.nil_append]
    · have hends := hsound.id_of_ensuing hwrite hlink hch
      rw [hcard, hid] at hends
      exact absurd hends (by decide)

end Kernel

end LinkedContracts
