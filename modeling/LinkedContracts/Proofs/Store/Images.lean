import LinkedContracts.Proofs.Store.Identity
import Mathlib.Data.List.Basic

/-! # Images and the store

    An image shows the linked contracts as they were when it was made, in the
    order of the links.  The store lists them in the order in which they were
    created.  Where both orders agree, an image of the store shows what the
    store links.

    A write announces the written contract with an image of the store that it
    leaves behind, and the contracts that it links with images from on the
    way there. -/

namespace LinkedContracts

/-- What is read back is as active as the contract was. -/
theorem Contract.active_of_reread {c d : Contract} (h : c.reread = some d) :
    d.active = c.active :=
  (Option.some.inj (readFrom_of_reread h).active).symm

namespace Store

variable {s : Store} {id name : String}

/-! ## Links of an image -/

/-- The contract that an edge shows on the image of a contract, under a
    name. -/
def shownBy (s : Store) (id name : String) (e : Edge) : Option Json :=
  if (e.fromId = id ∨ e.toId = id) ∧ e.nameFrom id = name then
    ((s.contract? (e.farEnd id)).filter Contract.active).map Contract.toRow
  else none

/-- An image shows the contracts at the far ends, edge by edge. -/
theorem linksOf_eq_filterMap (s : Store) (id name : String) :
    (Dict.find? (s.linksOf id) name).getD []
      = s.edges.filterMap fun p => s.shownBy id name p.2 := by
  have foldl {step : Dict (List Json) → String × Edge → Dict (List Json)}
      (hstep : ∀ links p, (Dict.find? (step links p) name).getD []
        = (Dict.find? links name).getD [] ++ (s.shownBy id name p.2).toList)
      (edges : List (String × Edge)) (links : Dict (List Json)) :
      (Dict.find? (edges.foldl step links) name).getD []
        = (Dict.find? links name).getD []
          ++ edges.filterMap fun p => s.shownBy id name p.2 := by
    induction edges generalizing links with
    | nil => simp
    | cons p rest ih =>
        rw [List.foldl_cons, ih, hstep, List.filterMap_cons, List.append_assoc]
        cases s.shownBy id name p.2 <;> rfl
  rw [linksOf]
  refine (foldl ?_ s.edges []).trans (List.nil_append _)
  intro links p
  obtain ⟨key, e⟩ := p
  dsimp only
  rw [shownBy]
  by_cases hattached : e.fromId = id ∨ e.toId = id
  · cases hfar : (s.contract? (e.farEnd id)).filter Contract.active with
    | none => simp [hattached]
    | some other =>
        by_cases hname : e.nameFrom id = name
        · simp [hattached, hname, addLinked]
        · simp [hattached, hname, addLinked, Dict.find?_insert_of_ne]
  · simp [hattached]

/-! ## Links of the store -/

/-- The links of a contract are in order: none leads back to it, and those of
    one name stand as the contracts at their far ends were created. -/
structure LinksInOrder (s : Store) (id : String) : Prop where
  apart : ∀ p ∈ s.edges, ¬(p.2.fromId = id ∧ p.2.toId = id)
  created : ∀ name, (s.linkedRows id name).Pairwise
    fun a b => linkedBefore a b = true

/-- What is linked through links in order, edge by edge. -/
theorem LinksInOrder.linked_eq (h : s.LinksInOrder id) (name : String) :
    (s.linked id name).map Contract.toRow
      = s.edges.filterMap fun p => s.shownBy id name p.2 := by
  rw [linked, List.mergeSort_of_pairwise (h.created name), linkedRows,
    List.filterMap_filterMap, List.map_filterMap]
  refine List.filterMap_congr fun p hp => ?_
  obtain ⟨key, e⟩ := p
  have hname : e.attaches id name = true
      ↔ (e.fromId = id ∨ e.toId = id) ∧ e.nameFrom id = name := by
    have hapart := h.apart (key, e) hp
    simp only [Edge.attaches, Edge.nameFrom, Bool.or_eq_true, Bool.and_eq_true,
      beq_iff_eq]
    by_cases hfrom : e.fromId = id
    · have hto : e.toId ≠ id := fun hto => hapart ⟨hfrom, hto⟩
      simp [hfrom, hto]
    · simp [hfrom]
  rw [shownBy, contract?]
  dsimp only
  by_cases hattached : e.attaches id name = true
  · rw [if_pos hattached, if_pos (hname.mp hattached)]
    cases Dict.find? s.rows (e.farEnd id) with
    | none => rfl
    | some row =>
        cases hcontents : row.contents with
        | none => cases row.written.active <;> simp [hcontents]
        | some c =>
            have hactive := Contract.active_of_reread (StoredRow.reread hcontents)
            cases hwritten : row.written.active <;>
              simp [hcontents, hwritten, hactive, Option.filter]
  · rw [if_neg hattached, if_neg (fun h => hattached (hname.mpr h))]
    rfl

/-- Where the links of a contract are in order, its image shows what is
    linked. -/
theorem LinksInOrder.linksOf_eq (h : s.LinksInOrder id) (name : String) :
    (Dict.find? (s.linksOf id) name).getD [] = (s.linked id name).map Contract.toRow :=
  (linksOf_eq_filterMap s id name).trans (h.linked_eq name).symm

/-! ## Images that the store bears out -/

/-- A document shows a stored contract with what the store links to it. -/
structure Bears (s : Store) (image : Json) (c : Contract) : Prop where
  stored : c ∈ s.contracts
  shown : ∃ links, image = .object (Dict.insert c.rowFields "links"
      (Contract.linksJson links))
    ∧ ∀ name, (Dict.find? links name).getD []
      = (s.linked c.id name).map Contract.toRow

theorem LinksInOrder.bears {c : Contract} (h : s.LinksInOrder c.id)
    (hc : c ∈ s.contracts) : s.Bears (s.image c) c :=
  ⟨hc, s.linksOf c.id, rfl, h.linksOf_eq⟩

/-! ## Announced images -/

theorem pending_stamp (s : Store) (l : Link) (c : Contract) :
    (s.stamp l c).1.pending = s.pending := by
  rw [stamp]
  split <;> rfl

theorem pending_stampAll {l : Link} {ends : List (Contract × Json)} (s : Store) :
    (stampAll l s ends).1.pending = s.pending := by
  induction ends generalizing s with
  | nil => rfl
  | cons p rest ih =>
      obtain ⟨c, before⟩ := p
      exact (ih _).trans (pending_stamp s l c)

theorem pending_relink {link : Option Link} {ends : List (Contract × Json)}
    (s : Store) : (s.relink link ends).1.pending = s.pending := by
  cases link with
  | none => rfl
  | some l => exact pending_stampAll _

end Store

end LinkedContracts
