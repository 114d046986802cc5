import LinkedContracts.Proofs.Instant.Order
import LinkedContracts.Proofs.Query.Order
import LinkedContracts.Proofs.Store.Restamped
import Mathlib.Data.List.Pairwise

/-! # Results in order of creation

    By default results are sorted by the text of their time of creation and
    then by their id.  The texts in documents are in the order of the instants
    unless one goes on with decimals where the other ends, so that a contract
    stands before one that was created earlier exactly if the time of that one
    is its own with decimals cut off.

    The contracts that a contract is linked to are listed by another text of
    the time, which is in the order of the instants. -/

namespace LinkedContracts

theorem isLE_compare_iff {a b : String} : (compare a b).isLE ↔ a ≤ b :=
  Ordering.isLE_iff_ne_gt.trans compare_le_iff_le

namespace Store

variable {s : Store} {id name : String} {c d : Contract}

/-- Linked contracts by the text of the time of creation, then by the id. -/
def cmpLinked (c d : Contract) : Ordering :=
  (compare c.createdAt.orderText d.createdAt.orderText).then (compare c.id d.id)

instance : Std.TransCmp cmpLinked :=
  inferInstanceAs (Std.TransCmp (compareLex
    (compareOn fun c : Contract => c.createdAt.orderText) (compareOn Contract.id)))

theorem linkedBefore_eq :
    linkedBefore = fun a b => cmpLinked a.written b.written != .gt := by
  funext a b
  rw [linkedBefore, cmpLinked]

/-- Contracts that are read back are in the order of those they were put as. -/
theorem cmpLinked_reread {c' d' : Contract} (hc : c.reread = some c')
    (hd : d.reread = some d') : cmpLinked c' d' = cmpLinked c d := by
  have hcreated {c c' : Contract} (hc : c.reread = some c') :
      c'.createdAt.orderText = c.createdAt.orderText :=
    Instant.orderText_eq_iff.mpr (Instant.text_of_parse? (Contract.parse?_createdAt hc))
  rw [cmpLinked, cmpLinked, hcreated hc, hcreated hd,
    (Contract.sameIdentity_of_reread hc).id, (Contract.sameIdentity_of_reread hd).id]

/-- The contracts linked to a contract stand in their order. -/
theorem pairwise_linked (s : Store) (id name : String) :
    (s.linked id name).Pairwise fun c d => (cmpLinked c d).isLE := by
  have htrans : Std.TransCmp fun a b : StoredRow => cmpLinked a.written b.written :=
    transCmp_comap cmpLinked StoredRow.written
  have hsorted : ((s.linkedRows id name).mergeSort linkedBefore).Pairwise
      fun a b => (cmpLinked a.written b.written).isLE := by
    rw [linkedBefore_eq]
    exact pairwise_mergeSort_cmp _
  refine List.Pairwise.filterMap _ (fun a b h c hc d hd => ?_) hsorted
  rw [cmpLinked_reread (StoredRow.reread hc) (StoredRow.reread hd)]
  exact h

/-- Of two linked contracts the one created earlier comes first. -/
theorem isLE_cmpLinked_iff (hc : c.createdAt.Writable) (hd : d.createdAt.Writable) :
    (cmpLinked c d).isLE ↔ c.createdAt.Earlier d.createdAt
      ∨ c.createdAt = d.createdAt ∧ c.id ≤ d.id := by
  have hinj : c.createdAt.orderText = d.createdAt.orderText
      ↔ c.createdAt = d.createdAt :=
    ⟨fun h => hc.text_inj hd (Instant.orderText_eq_iff.mp h), congrArg _⟩
  rw [cmpLinked, Ordering.isLE_then_iff_or, compare_lt_iff_lt, Std.compare_eq_iff_eq,
    isLE_compare_iff, hc.orderText_lt_iff hd, hinj]

end Store

namespace Query

variable {options : QueryOptions} {a b : Json} {t u : Instant}

/-- Whether a contract was created at an instant, as contracts are written. -/
structure CreatedAt (c : Json) (t : Instant) : Prop where
  text : c.stringField? "created_at" = some t.text
  writable : t.Writable

/-- The default order: by the text of the time of creation, then by the id. -/
def cmpCreated (a b : Json) : Ordering :=
  (cmpMissingFirst compare (a.stringField? "created_at")
    (b.stringField? "created_at")).then (compare (idOf a) (idOf b))

theorem cmpContracts_default (h : options.sortKeys? = none) :
    cmpContracts options = cmpCreated := by
  funext a b
  rw [cmpContracts, h]
  rfl

instance : Std.TransCmp cmpCreated := by
  have hdefault : ({} : QueryOptions).sortKeys? = none := rfl
  rw [← cmpContracts_default hdefault]
  infer_instance

theorem pairwise_sort_default (h : options.sortKeys? = none) (contracts : List Json) :
    (sort options contracts).Pairwise fun a b => (cmpCreated a b).isLE := by
  rw [← cmpContracts_default h]
  exact pairwise_sort options contracts

/-- Of two contracts the one created earlier comes first by default, unless its
    time of creation is that of the other one cut off. -/
theorem isLE_cmpCreated_iff (ha : CreatedAt a t) (hb : CreatedAt b u) :
    (cmpCreated a b).isLE ↔ (t.Earlier u ∧ ¬t.CutOf u ∨ u.CutOf t)
      ∨ t = u ∧ idOf a ≤ idOf b := by
  have hinj : t.text = u.text ↔ t = u :=
    ⟨ha.writable.text_inj hb.writable, congrArg _⟩
  rw [cmpCreated, ha.text, hb.text, cmpMissingFirst, Ordering.isLE_then_iff_or,
    compare_lt_iff_lt, Std.compare_eq_iff_eq, isLE_compare_iff,
    ha.writable.text_lt_iff hb.writable, hinj]

/-- Where the default order follows the instants, neither is cut off from the
    other. -/
theorem not_cutOf_of_isLE (ha : CreatedAt a t) (hb : CreatedAt b u)
    (hbefore : t.Earlier u ∨ t = u) (h : (cmpCreated a b).isLE) :
    ¬t.CutOf u ∧ ¬u.CutOf t := by
  have hcut : ¬u.CutOf t := fun hcut => by
    rcases hbefore with hearlier | hsame
    · exact hearlier.asymm (hb.writable.earlier_of_cutOf ha.writable hcut)
    · exact hcut.2 (congrArg _ hsame.symm)
  refine ⟨fun hcut' => ?_, hcut⟩
  rcases (isLE_cmpCreated_iff ha hb).mp h with (⟨-, hnot⟩ | hcut'') | ⟨hsame, -⟩
  · exact hnot hcut'
  · exact hcut hcut''
  · exact hcut'.2 (congrArg _ hsame)

/-- Contracts that compare equal have one id. -/
theorem idOf_eq_of_isLE (h : (cmpCreated a b).isLE) (h' : (cmpCreated b a).isLE) :
    idOf a = idOf b := by
  have heq : cmpCreated a b = .eq := Std.OrientedCmp.isLE_antisymm h h'
  exact Std.compare_eq_iff_eq.mp (Ordering.then_eq_eq.mp heq).2

/-! ## Linked contracts in the default order -/

section Linked

variable {s : Store} {id name : String} {c d : Contract} {contracts : List Json}

/-- The row of a linked contract was created when the contract was. -/
theorem createdAt_toRow (hc : c ∈ s.linked id name) (h : CreatedAt c.toRow t) :
    c.createdAt = t := by
  obtain ⟨p, -, hcontents⟩ := Store.mem_contracts.mp (Store.mem_contracts_of_linked hc)
  have hread := Contract.createdAt_of_reread (StoredRow.reread hcontents)
  have htext : c.createdAt.text = t.text := Option.some.inj h.text
  rw [htext, h.writable.readable] at hread
  exact (Option.some.inj hread).symm

/-- Sorting the contracts linked to a contract gives them as they are listed if
    they are listed in the default order. -/
theorem sort_eq_linked_iff (hdefault : options.sortKeys? = none) (hsound : s.Sound)
    (hlinked : contracts.Perm ((s.linked id name).map Contract.toRow)) :
    sort options contracts = (s.linked id name).map Contract.toRow
      ↔ ((s.linked id name).map Contract.toRow).Pairwise
        (fun a b => (cmpCreated a b).isLE) := by
  have hsorted := pairwise_sort_default hdefault contracts
  refine ⟨fun heq => heq ▸ hsorted, fun hrows => ?_⟩
  have hperm : (sort options contracts).Perm _ := (List.mergeSort_perm _ _).trans hlinked
  refine hperm.eq_of_pairwise (fun a b ha hb hab hba => ?_) hsorted hrows
  obtain ⟨c, hc, rfl⟩ := List.mem_map.mp (hperm.mem_iff.mp ha)
  obtain ⟨d, hd, rfl⟩ := List.mem_map.mp hb
  have hid : c.id = d.id := idOf_eq_of_isLE hab hba
  have hfound (c : Contract) (hc : c ∈ s.linked id name) : s.contract? c.id = some c :=
    hsound.contract?_eq_some.mpr ⟨Store.mem_contracts_of_linked hc, rfl⟩
  have hsame := hfound c hc
  rw [hid, hfound d hd] at hsame
  rw [Option.some.inj hsame]

variable (hcreated : ∀ c ∈ s.linked id name, CreatedAt c.toRow c.createdAt)

include hcreated

/-- The contracts linked to a contract are listed as they were created. -/
theorem pairwise_linked_created : (s.linked id name).Pairwise fun c d =>
    c.createdAt.Earlier d.createdAt ∨ c.createdAt = d.createdAt ∧ c.id ≤ d.id :=
  (s.pairwise_linked id name).imp_of_mem fun hc hd =>
    (Store.isLE_cmpLinked_iff (hcreated _ hc).writable (hcreated _ hd).writable).mp

/-- The contracts linked to a contract are listed in the default order if no time
    of creation is another one cut off, and only then. -/
theorem pairwise_rows_iff :
    ((s.linked id name).map Contract.toRow).Pairwise (fun a b => (cmpCreated a b).isLE)
      ↔ ∀ c ∈ s.linked id name, ∀ d ∈ s.linked id name,
        ¬c.createdAt.CutOf d.createdAt := by
  have hlisted := pairwise_linked_created hcreated
  rw [List.pairwise_map]
  constructor
  · intro hsorted
    have hapart : (s.linked id name).Pairwise fun c d =>
        ¬c.createdAt.CutOf d.createdAt ∧ ¬d.createdAt.CutOf c.createdAt :=
      (hlisted.and hsorted).imp_of_mem fun hc hd ⟨hbefore, hle⟩ =>
        not_cutOf_of_isLE (hcreated _ hc) (hcreated _ hd) (hbefore.imp_right And.left) hle
    have hsymm : Std.Symm fun c d : Contract =>
        ¬c.createdAt.CutOf d.createdAt ∧ ¬d.createdAt.CutOf c.createdAt :=
      ⟨fun _ _ => And.symm⟩
    intro c hc d hd
    have hself (c : Contract) : ¬c.createdAt.CutOf c.createdAt := fun hcut => hcut.2 rfl
    exact (hapart.forall_of_forall (fun c _ => ⟨hself c, hself c⟩) hc hd).1
  · intro hcut
    refine hlisted.imp_of_mem fun {c d} hc hd hbefore => ?_
    refine (isLE_cmpCreated_iff (hcreated c hc) (hcreated d hd)).mpr ?_
    exact hbefore.imp_left fun hearlier => .inl ⟨hearlier, hcut c hc d hd⟩

end Linked

/-- Contracts in the default order are a permutation of the contracts in which one
    that was created earlier comes first, unless it was created in the same second
    and its time of creation is that of the other one cut off; contracts created
    at one instant come by their ids.

    The contracts linked to a contract are listed by the instants they were
    created at and by their ids, without exception.  So they are listed in the
    default order exactly if the time of none is that of another cut off. -/
theorem sort_by_creation {contracts : List Json} (hdefault : options.sortKeys? = none)
    (hcreated : ∀ c ∈ contracts, ∃ t, CreatedAt c t) :
    (sort options contracts).Perm contracts
      ∧ (sort options contracts).Pairwise (fun a b => ∀ t u,
          CreatedAt a t → CreatedAt b u →
          (t.Earlier u ∧ ¬t.CutOf u ∨ u.CutOf t ∧ u.whole = t.whole)
            ∨ t = u ∧ idOf a ≤ idOf b)
      ∧ ∀ (s : Store) (id name : String), s.Sound →
          contracts.Perm ((s.linked id name).map Contract.toRow) →
          (s.linked id name).Pairwise (fun c d => c.createdAt.Earlier d.createdAt
              ∨ c.createdAt = d.createdAt ∧ c.id ≤ d.id)
            ∧ (sort options contracts = (s.linked id name).map Contract.toRow
              ↔ ∀ c ∈ s.linked id name, ∀ d ∈ s.linked id name,
                ¬c.createdAt.CutOf d.createdAt) := by
  have hperm : (sort options contracts).Perm contracts := List.mergeSort_perm _ _
  refine ⟨hperm, (pairwise_sort_default hdefault contracts).imp fun h t u ha hb => ?_, ?_⟩
  · refine ((isLE_cmpCreated_iff ha hb).mp h).imp_left (Or.imp_right fun hcut => ⟨hcut, ?_⟩)
    exact hb.writable.whole_eq_of_cutOf ha.writable hcut
  intro s id name hsound hlinked
  have hlisted : ∀ c ∈ s.linked id name, CreatedAt c.toRow c.createdAt := by
    intro c hc
    obtain ⟨t, ht⟩ := hcreated c.toRow (hlinked.mem_iff.mpr (List.mem_map_of_mem hc))
    rwa [createdAt_toRow hc ht]
  exact ⟨pairwise_linked_created hlisted,
    (sort_eq_linked_iff hdefault hsound hlinked).trans (pairwise_rows_iff hlisted)⟩

/-! ## Two cards of a board -/

namespace Board

/-- A card that was created at an instant. -/
def card (id : String) (created : Instant) : Contract where
  id := id
  slug := id
  type := "card@1.0.0"
  version := Version.initial.text
  name := none
  active := true
  tags := []
  markers := []
  requires := []
  capabilities := []
  links := []
  linkedAt := []
  createdAt := created
  updatedAt := none
  data := .object []

/-- Two cards, and the links of a board to them. -/
def store (t u : Instant) : Store where
  rows := [("a", .ofContract (card "a" t)), ("b", .ofContract (card "b" u))]
  edges := [("1", ⟨"has card", "is on board", "board", "a"⟩),
    ("2", ⟨"has card", "is on board", "board", "b"⟩)]

variable {t u : Instant}

theorem createdAt_card {id : String} (ht : t.Writable) : CreatedAt (card id t).toRow t :=
  ⟨rfl, ht⟩

theorem sound_store (t u : Instant) : (store t u).Sound where
  sorted := by
    show List.Pairwise (· < ·) ["a", "b"]
    decide
  keyed := by simp [store, card]
  kept := by
    have hkept (id : String) (t : Instant) (hid : id.isEmpty = false) : (card id t).Kept :=
      ⟨hid, hid, ⟨Version.initial, Version.initial_spelled, rfl⟩, rfl⟩
    simp [store, hkept]
  distinct := by simp [store, card]

/-- The cards are listed as they were created. -/
theorem linked_store (ht : t.Writable) (hu : u.Writable) (h : t.Earlier u) :
    (store t u).linked "board" "has card" = [card "a" t, card "b" u] := by
  have hreread {id : String} {t : Instant} (ht : t.Writable) :
      (card id t).reread = some (card id t) :=
    Contract.reread_eq rfl rfl rfl ht.readable rfl rfl nofun
  have hrows : (store t u).linkedRows "board" "has card"
      = [.ofContract (card "a" t), .ofContract (card "b" u)] := by
    rfl
  have hbefore : Store.linkedBefore (.ofContract (card "a" t)) (.ofContract (card "b" u)) := by
    rw [Store.linkedBefore_eq, bne_gt_iff_isLE]
    exact (Store.isLE_cmpLinked_iff ht hu).mpr (.inl h)
  rw [Store.linked, hrows, List.mergeSort_of_pairwise (by simpa using hbefore)]
  simp [hreread ht, hreread hu]

/-- The start of a second, half of it and half of the next one. -/
def start : Instant := ⟨1609459200, 0⟩

@[inherit_doc start]
def half : Instant := ⟨1609459200, 500000000⟩

@[inherit_doc start]
def next : Instant := ⟨1609459201, 500000000⟩

theorem writable_start : start.Writable := by decide +kernel

theorem writable_half : half.Writable := by decide +kernel

theorem writable_next : next.Writable := by decide +kernel

end Board

open Board

/-- The cards of a board are sorted as they are listed. -/
theorem sort_by_creation_board :
    (store start next).linked "board" "has card" = [card "a" start, card "b" next]
      ∧ sort {} [(card "b" next).toRow, (card "a" start).toRow]
        = [(card "a" start).toRow, (card "b" next).toRow] := by
  have hlinked := linked_store writable_start writable_next (.inl (by decide))
  refine ⟨hlinked, ?_⟩
  have hcreated : ∀ c ∈ [(card "b" next).toRow, (card "a" start).toRow],
      ∃ t, CreatedAt c t := by
    simp only [List.forall_mem_cons, List.not_mem_nil]
    exact ⟨⟨_, createdAt_card writable_next⟩, ⟨_, createdAt_card writable_start⟩, nofun⟩
  have hdefault : ({} : QueryOptions).sortKeys? = none := rfl
  have hsorted := ((sort_by_creation hdefault hcreated).2.2 _ "board" "has card"
    (sound_store start next) (hlinked ▸ .swap _ _ _)).2.mpr
  rw [hlinked] at hsorted
  refine hsorted ?_
  decide +kernel

/-- A card that was created half a second later is sorted before another one, but
    listed after it. -/
theorem sort_later_first :
    CreatedAt (card "a" start).toRow start ∧ CreatedAt (card "b" half).toRow half
      ∧ start.Earlier half
      ∧ (store start half).linked "board" "has card" = [card "a" start, card "b" half]
      ∧ sort {} [(card "a" start).toRow, (card "b" half).toRow]
        = [(card "b" half).toRow, (card "a" start).toRow] := by
  have hearlier : start.Earlier half := .inr ⟨rfl, by decide⟩
  refine ⟨createdAt_card writable_start, createdAt_card writable_half, hearlier,
    linked_store writable_start writable_half hearlier, ?_⟩
  have hgt : cmpContracts {} (card "a" start).toRow (card "b" half).toRow = .gt := by
    decide +kernel
  simp [sort, List.mergeSort, List.MergeSort.Internal.splitInTwo, hgt]

end Query

end LinkedContracts
