import LinkedContracts.Mask
import LinkedContracts.Proofs.Compile.Asked

/-! # What masked queries ask

    Behind a mask, a query asks of linked contracts what it asked before with
    the mask on it.  What it asks otherwise, the mask asks by itself. -/

namespace LinkedContracts

open Schema

namespace Mask

variable {mask query t : Schema} {linkType : String}

theorem pruneAll_eq (schemas : List Schema) (mask : Schema) :
    pruneAll schemas mask = schemas.map (prune · mask) := by
  induction schemas with
  | nil => rfl
  | cons s rest ih => rw [pruneAll, ih, List.map_cons]

theorem mem_pruneLinkTypes {fields : List (String × Schema)}
    (h : (linkType, t) ∈ pruneLinkTypes fields mask) :
    ∃ s, (linkType, s) ∈ fields ∧ t = merge mask s := by
  induction fields with
  | nil => cases h
  | cons field rest ih =>
      obtain ⟨name, s⟩ := field
      rcases List.mem_cons.mp h with h | h
      · obtain ⟨rfl, rfl⟩ := Prod.mk.inj h
        exact ⟨s, List.mem_cons_self, rfl⟩
      · obtain ⟨s', hs, rfl⟩ := ih h
        exact ⟨s', List.mem_cons_of_mem _ hs, rfl⟩

/-- The branches of a pruned schema are the pruned branches of the schema. -/
theorem branches_prune {kw pruned : Keywords Schema}
    (hpruned : prune (.node kw) mask = .node pruned) :
    pruned.branches = kw.branches.map (prune · mask) := by
  have hbranches (branches : Option (List Schema)) :
      (pruneBranches branches mask).getD []
        = (branches.getD []).map (prune · mask) := by
    cases branches with
    | none => rfl
    | some schemas => exact pruneAll_eq schemas mask
  have hone (negated : Option Schema) :
      (pruneOne negated mask).toList = negated.toList.map (prune · mask) := by
    cases negated <;> rfl
  rw [prune] at hpruned
  obtain rfl := Schema.node.inj hpruned
  simp only [Keywords.branches, hbranches, hone, List.map_append]

/-- What a pruned query asks of linked contracts the query asks of them, and
    it has the mask on it. -/
theorem asks_prune (h : Asks (prune query mask) linkType t) :
    ∃ s, Asks query linkType s ∧ t = merge mask s := by
  generalize hpruned : prune query mask = pruned at h
  induction h generalizing query with
  | link ht =>
      cases query with
      | bool accepts => simp [prune] at hpruned
      | node kw =>
          rw [prune] at hpruned
          obtain rfl := Schema.node.inj hpruned
          cases hlinks : kw.links with
          | none => simp [hlinks, pruneLinks] at ht
          | some fields =>
              rw [hlinks] at ht
              obtain ⟨s, hs, rfl⟩ := mem_pruneLinkTypes ht
              exact ⟨s, .link (by rwa [hlinks]), rfl⟩
  | branch hs _ ih =>
      cases query with
      | bool accepts => simp [prune] at hpruned
      | node kw =>
          rw [branches_prune hpruned] at hs
          obtain ⟨s, hbranch, rfl⟩ := List.mem_map.mp hs
          obtain ⟨t, hasks, rfl⟩ := ih rfl
          exact ⟨t, .branch hbranch hasks, rfl⟩

end Mask

end LinkedContracts
