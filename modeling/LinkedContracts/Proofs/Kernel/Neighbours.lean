import LinkedContracts.Proofs.Kernel.Readback
import LinkedContracts.Proofs.Store.Neighbours

/-! # Neighbours of stored contracts

    In a reachable kernel the image of a contract shows under a name what the
    kept links, looked at from the contract, lead to.  What is linked to the
    contract is the same, but that a link from the contract to itself counts
    under both of its names. -/

namespace LinkedContracts

namespace Kernel

open Store

variable {k : Kernel}

/-- What is linked to a contract under a name is what its image shows, and what
    the kept links lead to when looked at from there; the contract itself is
    linked besides, if one of its links leads back to it and has that as its
    other name.  All three are the same unless this is the only link to itself
    that the contract has under the name. -/
theorem linked_iff_seen [TextLibrary] (hk : Reachable k) (c : Contract) (name : String) :
    (∀ other, other ∈ (k.store.image c).shownIds name ↔ k.store.Sees c.id name other)
      ∧ ∃ linked, k.linked c.id name = .ok linked
        ∧ (∀ other, other ∈ linked.map Contract.id
          ↔ k.store.Sees c.id name other ∨ other = c.id ∧ k.store.Loops c.id name)
        ∧ ((∀ other, other ∈ linked.map Contract.id ↔ k.store.Sees c.id name other)
          ↔ (k.store.Loops c.id name → k.store.Sees c.id name c.id)) := by
  have hsound := hk.sound
  have hlinked : k.linked c.id name = .ok (k.store.linked c.id name) := by
    simp [linked, hsound.outage]
  exact ⟨fun _ => hsound.store.mem_shownIds, _, hlinked,
    fun _ => hsound.store.mem_linked_iff, hsound.store.mem_linked_iff_sees⟩

/-- The reader is seen linked to the card. -/
theorem sees_tied : (tied anonymous).store.Sees "reader" "likes" "card" := by
  refine sees_iff.mpr ⟨⟨card, ?_, rfl, rfl⟩, ("liking", likingEdge), ?_, .inl rfl, rfl, rfl⟩
  · rw [contracts_tied reread_anonymous]
    exact List.mem_cons_self
  · rw [store_tied]
    exact List.mem_singleton_self _

/-- The card is what the reader is linked to, and what its image shows. -/
theorem linked_iff_seen_reader :
    ∃ linked, (tied anonymous).linked "reader" "likes" = .ok linked
      ∧ "card" ∈ linked.map Contract.id
      ∧ ∀ other, other ∈ linked.map Contract.id
        ↔ other ∈ ((tied anonymous).store.image (reader anonymous)).shownIds "likes" := by
  obtain ⟨hshown, linked, hlinked, hall, hsame⟩ :=
    linked_iff_seen (tied_reachable anonymous) (reader anonymous) "likes"
  have hapart : ¬(tied anonymous).store.Loops "reader" "likes" := by
    rintro ⟨-, p, hp, -, hto, -⟩
    rw [store_tied] at hp
    obtain rfl := List.mem_singleton.mp hp
    exact absurd hto (by decide)
  have hsees := hsame.mpr fun hloops => absurd hloops hapart
  exact ⟨linked, hlinked, (hall "card").mpr (.inl sees_tied),
    fun other => (hsees other).trans (hshown other).symm⟩

/-- A link to itself is linked under its other name, and neither seen nor shown
    under it. -/
theorem mirror_linked_unseen :
    let image := mirrored.store.image (mirror "likes")
    Reachable mirrored ∧ mirror "likes" ∈ mirrored.store.contracts
      ∧ ∃ linked, mirrored.linked "liking" "is liked by" = .ok linked
        ∧ "liking" ∈ linked.map Contract.id
        ∧ "liking" ∉ image.shownIds "is liked by"
        ∧ ¬mirrored.store.Sees "liking" "is liked by" "liking" := by
  have hsound := mirrored_reachable.sound.store
  obtain ⟨hstored, -⟩ := hsound.contract?_eq_some.mp contract?_mirrored
  obtain ⟨announced, hmirrored⟩ := mirrored_eq
  have hedges : mirrored.store.edges
      = [("liking", ⟨"likes", "is liked by", "liking", "liking"⟩)] := by
    rw [hmirrored]
  have hlinked : mirrored.linked "liking" "is liked by"
      = .ok (mirrored.store.linked "liking" "is liked by") := by
    rw [hmirrored]
    rfl
  have hunseen : ¬mirrored.store.Sees "liking" "is liked by" "liking" := by
    rw [sees_iff, hedges]
    rintro ⟨-, p, hp, -, hname, -⟩
    obtain rfl := List.mem_singleton.mp hp
    exact absurd hname (by decide)
  have hloops : mirrored.store.Loops "liking" "is liked by" := by
    refine ⟨⟨_, hstored, rfl, rfl⟩, ?_⟩
    rw [hedges]
    exact ⟨_, List.mem_singleton_self _, rfl, rfl, rfl⟩
  exact ⟨mirrored_reachable, hstored, _, hlinked,
    hsound.mem_linked_iff.mpr (.inr ⟨rfl, hloops⟩),
    fun hshown => hunseen (hsound.mem_shownIds.mp hshown), hunseen⟩

end Kernel

end LinkedContracts
