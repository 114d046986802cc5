import LinkedContracts.Proofs.Query.Order
import Mathlib.Data.List.Nodup

/-! # Sorting does not depend on the order before it

    Whatever results are sorted by, sorting gives an ordered permutation of
    them.  Results of different ids are never equal in the order, so that there
    is only one: the order they were in before does not matter. -/

namespace LinkedContracts

namespace Query

variable {options : QueryOptions} {a b : Json} {contracts contracts' : List Json}

/-- Contracts that compare as equal have one id. -/
theorem idOf_eq_of_cmpContracts (h : cmpContracts options a b = .eq) : idOf a = idOf b := by
  rw [cmpContracts_eq, compareLex, Ordering.then_eq_eq] at h
  exact Std.LawfulEqCmp.eq_of_compare h.2

/-- Of contracts of different ids each has its place in the order. -/
theorem eq_of_pairwise_cmpContracts (hids : (contracts.map idOf).Nodup)
    (hperm : contracts.Perm contracts')
    (h : contracts.Pairwise fun a b => (cmpContracts options a b).isLE)
    (h' : contracts'.Pairwise fun a b => (cmpContracts options a b).isLE) :
    contracts = contracts' := by
  refine hperm.eq_of_pairwise (fun a b ha hb hab hba => ?_) h h'
  refine List.inj_on_of_nodup_map hids ha (hperm.mem_iff.mpr hb) ?_
  exact idOf_eq_of_cmpContracts (Std.OrientedCmp.isLE_antisymm hab hba)

/-- Documents are totally preordered, and compare as equal exactly if they are
    equal by value.  Whatever contracts are sorted by, they are totally
    preordered too, and sorting gives an ordered permutation of them; of
    contracts of different ids it gives the same for every order before. -/
theorem sort_ordered_unique :
    Std.TransCmp Json.cmp
      ∧ (∀ a b : Json, a.InOrder → b.InOrder → (Json.cmp a b = .eq ↔ a.equal b = true))
      ∧ ∀ options : QueryOptions,
        Std.TransCmp (cmpContracts options)
          ∧ (∀ contracts : List Json, (sort options contracts).Perm contracts
            ∧ (sort options contracts).Pairwise fun a b => (cmpContracts options a b).isLE)
          ∧ ∀ contracts contracts' : List Json, contracts.Perm contracts' →
            (contracts.map idOf).Nodup → sort options contracts = sort options contracts' := by
  refine ⟨inferInstance, fun a b ha hb => Json.cmp_eq_iff ha hb, fun options => ?_⟩
  have hperm := perm_sort options
  refine ⟨inferInstance, fun contracts => ⟨hperm contracts, pairwise_sort options contracts⟩, ?_⟩
  intro contracts contracts' hsame hids
  have hids' : ((sort options contracts).map idOf).Nodup :=
    ((hperm contracts).map idOf).nodup_iff.mpr hids
  exact eq_of_pairwise_cmpContracts hids'
    ((hperm contracts).trans (hsame.trans (hperm contracts').symm))
    (pairwise_sort options contracts) (pairwise_sort options contracts')

/-! ## Parcels by their weights -/

namespace Parcels

/-- A parcel of some weight. -/
def parcel (id : String) (weight : Number) : Json :=
  .object [("data", .object [("weight", .number weight)]), ("id", .string id)]

/-- Parcels of which two weigh the same, one by a whole number and one by a
    floating-point value. -/
def parcels : List Json :=
  [parcel "a" (.int 1), parcel "b" (.int 2), parcel "c" (.double (.ofInt 1))]

/-- The parcels by their weights. -/
def stacked : List Json :=
  [parcel "b" (.int 2), parcel "a" (.int 1), parcel "c" (.double (.ofInt 1))]

/-- The heaviest first. -/
def heaviestFirst : QueryOptions := { sortBy := some ["data", "weight"], descending := true }

theorem inOrder_parcel (id : String) (weight : Number) : (parcel id weight).InOrder := by
  have hsorted : Dict.Sorted [("weight", Json.number weight)] :=
    Dict.sorted_cons.mpr ⟨nofun, Dict.sorted_nil⟩
  have hfields : Dict.Sorted
      [("data", Json.object [("weight", .number weight)]), ("id", Json.string id)] :=
    Dict.sorted_cons.mpr ⟨List.forall_mem_singleton.mpr (show "data" < "id" by decide),
      Dict.sorted_cons.mpr ⟨nofun, Dict.sorted_nil⟩⟩
  refine Json.throughout_object hfields (List.forall_mem_cons.mpr ⟨?_, ?_⟩)
  · exact Json.throughout_object hsorted
      (List.forall_mem_singleton.mpr (Json.throughout_number trivial))
  · exact List.forall_mem_singleton.mpr (Json.throughout_string trivial)

end Parcels

open Parcels

/-- Parcels that are told apart by nothing but the kind of their weight are
    equal, and parcels are stacked by their weights whatever order they came
    in. -/
theorem sort_ordered_unique_parcels :
    Json.cmp (parcel "a" (.int 1)) (parcel "a" (.double (.ofInt 1))) = .eq
      ∧ (parcels.map idOf).Nodup
      ∧ sort heaviestFirst parcels = stacked
      ∧ sort heaviestFirst parcels.reverse = stacked := by
  obtain ⟨-, hequal, hsort⟩ := sort_ordered_unique
  obtain ⟨-, -, hunique⟩ := hsort heaviestFirst
  have hids : (parcels.map idOf).Nodup := by decide
  have hstacked : sort heaviestFirst parcels = stacked := by
    have hperm : parcels.Perm stacked := .swap _ _ _
    rw [hunique parcels stacked hperm hids, sort, List.mergeSort_of_pairwise]
    decide +kernel
  refine ⟨?_, hids, hstacked, ?_⟩
  · exact (hequal _ _ (inOrder_parcel _ _) (inOrder_parcel _ _)).mpr (by decide +kernel)
  · rw [← hunique parcels _ parcels.reverse_perm.symm hids, hstacked]

end Query

end LinkedContracts
