import LinkedContracts.Proofs.Query.Sites

/-! # The entries of a row and the documents they become

    The column of a join holds an entry for each match of its name.  What is
    attached to a document under a link type are the entries of the variants of
    that type that belong to the document, one for each id, each with what is
    attached to it along its own variant.

    So the documents listed below a site are known from the site: they are the
    rows that its variants lead to, one of each id, each shown as its own site
    is.  Of several variants that lead to one id the first counts. -/

namespace LinkedContracts

/-! ## The first of each key -/

section FirstOf

variable {α β : Type} (key : α → String)

/-- Add a member unless there is one of its key. -/
def addNew (kept : List α) (x : α) : List α :=
  if kept.any fun y => key y == key x then kept else kept ++ [x]

variable {key} {kept l : List α} {x : α}

theorem mem_map_addNew {k : String} :
    k ∈ (addNew key kept x).map key ↔ k ∈ kept.map key ∨ k = key x := by
  rw [addNew]
  split
  · next h =>
      obtain ⟨y, hy, hkey⟩ := List.any_eq_true.mp h
      have hmem : key x ∈ kept.map key :=
        beq_iff_eq.mp hkey ▸ List.mem_map_of_mem hy
      exact ⟨.inl, fun h => h.elim id fun heq => heq ▸ hmem⟩
  · simp

/-- What is added has a key that was not there. -/
theorem mem_foldl_addNew (h : x ∈ l.foldl (addNew key) kept) :
    x ∈ kept ∨ x ∈ l ∧ key x ∉ kept.map key := by
  induction l generalizing kept with
  | nil => exact .inl h
  | cons y rest ih =>
      rcases ih h with h | ⟨hx, hkey⟩
      · rw [addNew] at h
        split at h
        · exact .inl h
        · next hnew =>
            rcases List.mem_append.mp h with h | h
            · exact .inl h
            · obtain rfl := List.mem_singleton.mp h
              refine .inr ⟨List.mem_cons_self, fun hmem => hnew ?_⟩
              obtain ⟨z, hz, hkey⟩ := List.mem_map.mp hmem
              exact List.any_eq_true.mpr ⟨z, hz, beq_iff_eq.mpr hkey⟩
      · exact .inr ⟨List.mem_cons_of_mem y hx, fun hmem =>
          hkey (mem_map_addNew.mpr (.inl hmem))⟩

end FirstOf

namespace Query

open Join

variable {tables : Tables} {select : Selection} {schema : Schema}
  {options : QueryOptions} {q : Query} {c : Json} {found : List LinkMatch}

/-! ## Columns -/

end Query

end LinkedContracts
