import LinkedContracts.Proofs.Json.Order
import LinkedContracts.Proofs.Schema.Columns
import LinkedContracts.Proofs.Version
import LinkedContracts.Query.Order

/-! # Results in order

    Whatever results are sorted by, it is a total preorder, and they come out
    sorted.  By version, the greatest first, what stands before has no smaller
    version than what stands after.

    Any order depends on the ids and on what the results are sorted by, and
    on nothing else of them. -/

namespace LinkedContracts

/-- A search finds the only element there is to find. -/
theorem find?_eq_of_unique {α : Type} {l : List α} {p : α → Bool} {found : Option α}
    (h : ∀ a, found = some a ↔ a ∈ l ∧ p a = true) : l.find? p = found := by
  cases hl : l.find? p with
  | none =>
      cases found with
      | none => rfl
      | some a =>
          obtain ⟨ha, hp⟩ := (h a).mp rfl
          exact absurd hp (List.find?_eq_none.mp hl a ha)
  | some a =>
      exact ((h a).mpr ⟨List.mem_of_find?_eq_some hl, List.find?_some hl⟩).symm

theorem bne_gt_iff_isLE {o : Ordering} : (o != .gt) = true ↔ o.isLE := by
  cases o <;> decide

/-- What is sorted stands in the order it is sorted by. -/
theorem pairwise_mergeSort_cmp {α : Type} {cmp : α → α → Ordering} [Std.TransCmp cmp]
    (l : List α) :
    (l.mergeSort fun a b => cmp a b != .gt).Pairwise fun a b => (cmp a b).isLE := by
  have sorted : (l.mergeSort fun a b => cmp a b != .gt).Pairwise
      fun a b => (cmp a b != .gt) = true := by
    refine List.pairwise_mergeSort (fun a b c hab hbc => ?_) (fun a b => ?_) _
    · rw [bne_gt_iff_isLE] at hab hbc ⊢
      exact Std.TransCmp.isLE_trans hab hbc
    · have swap : cmp b a = (cmp a b).swap := Std.OrientedCmp.eq_swap
      rw [Bool.or_eq_true, bne_gt_iff_isLE, bne_gt_iff_isLE, swap]
      cases cmp a b <;> decide
  exact sorted.imp bne_gt_iff_isLE.mp

/-- Values are ordered by what they are compared on. -/
theorem transCmp_comap {α β : Type} (cmp : β → β → Ordering) [Std.TransCmp cmp]
    (f : α → β) : Std.TransCmp fun a b => cmp (f a) (f b) where
  eq_swap := Std.OrientedCmp.eq_swap
  isLE_trans hab hbc := Std.TransCmp.isLE_trans hab hbc

namespace QueryOptions

/-- Whether the order of results depends on a property: it is the id, or what
    they are sorted by is in it. -/
def OrdersBy (options : QueryOptions) (key : String) : Prop :=
  key = "id" ∨ (options.sortKeys?.getD ["created_at"]).head? = some key

/-- Options to order by keys have some. -/
theorem ne_nil_of_sortKeys? {options : QueryOptions} {keys : List String}
    (h : options.sortKeys? = some keys) : keys ≠ [] := by
  rintro rfl
  rw [sortKeys?] at h
  split at h <;> simp_all

instance (options : QueryOptions) (key : String) : Decidable (options.OrdersBy key) :=
  inferInstanceAs (Decidable (key = "id"
    ∨ (options.sortKeys?.getD ["created_at"]).head? = some key))

end QueryOptions

namespace Query

/-- Values that may be missing are ordered if values are. -/
instance {α : Type} {cmp : α → α → Ordering} [Std.OrientedCmp cmp] :
    Std.OrientedCmp (cmpMissingLast cmp) where
  eq_swap {a b} :=
    match a, b with
    | none, none | none, some _ | some _, none => rfl
    | some a, some b => show cmp a b = (cmp b a).swap from Std.OrientedCmp.eq_swap

instance {α : Type} {cmp : α → α → Ordering} [Std.TransCmp cmp] :
    Std.TransCmp (cmpMissingLast cmp) where
  isLE_trans {a b c} hab hbc :=
    match a, b, c with
    | none, _, none | some _, _, none => rfl
    | none, none, some _ => nomatch hbc
    | none, some _, some _ => nomatch hab
    | some _, none, some _ => nomatch hbc
    | some a, some b, some c =>
        show (cmp a c).isLE from
          Std.TransCmp.isLE_trans (show (cmp a b).isLE from hab)
            (show (cmp b c).isLE from hbc)

theorem cmpMissingFirst_eq {α : Type} (cmp : α → α → Ordering) :
    cmpMissingFirst cmp = fun a b => cmpMissingLast (fun a b => cmp b a) b a := by
  funext a b
  cases a <;> cases b <;> rfl

instance {α : Type} {cmp : α → α → Ordering} [Std.TransCmp cmp] :
    Std.TransCmp (cmpMissingFirst cmp) := by
  have hcmp : Std.TransCmp fun a b => cmp b a := Std.TransCmp.opposite
  rw [cmpMissingFirst_eq]
  exact Std.TransCmp.opposite

/-! ## Any order -/

instance (keys : List String) : Std.TransCmp (cmpByKeys keys) := by
  have heq : cmpByKeys keys = if QueryOptions.byVersion keys
      then fun a b => cmpMissingLast Version.cmp (versionOf a) (versionOf b)
      else fun a b => cmpMissingLast Json.cmp (sortValue keys a) (sortValue keys b) := by
    funext a b
    rw [cmpByKeys]
    split <;> rfl
  rw [heq]
  split
  · exact transCmp_comap (cmpMissingLast Version.cmp) versionOf
  · exact transCmp_comap (cmpMissingLast Json.cmp) (sortValue keys)

/-- The order of contracts, their ids apart. -/
def cmpValues (options : QueryOptions) (a b : Json) : Ordering :=
  match options.sortKeys? with
  | none => cmpMissingFirst compare (a.stringField? "created_at") (b.stringField? "created_at")
  | some keys => if options.descending then cmpByKeys keys b a else cmpByKeys keys a b

instance (options : QueryOptions) : Std.TransCmp (cmpValues options) := by
  cases hkeys : options.sortKeys? with
  | none =>
      have heq : cmpValues options = fun a b => cmpMissingFirst compare
          (a.stringField? "created_at") (b.stringField? "created_at") := by
        funext a b
        rw [cmpValues, hkeys]
      rw [heq]
      exact transCmp_comap (cmpMissingFirst compare) fun c : Json => c.stringField? "created_at"
  | some keys =>
      have heq : cmpValues options = if options.descending
          then fun a b => cmpByKeys keys b a else cmpByKeys keys := by
        funext a b
        simp only [cmpValues, hkeys]
        split <;> rfl
      rw [heq]
      split
      · exact Std.TransCmp.opposite
      · infer_instance

/-- Contracts are ordered by what they are sorted by, then by their ids. -/
theorem cmpContracts_eq (options : QueryOptions) :
    cmpContracts options = compareLex (cmpValues options) (compareOn idOf) := by
  funext a b
  rw [compareLex, cmpContracts, cmpValues]
  cases options.sortKeys? with
  | none => rfl
  | some keys =>
      have hswap : (cmpByKeys keys a b).swap = cmpByKeys keys b a :=
        Std.OrientedCmp.eq_swap.symm
      simp only [hswap]
      rfl

/-- Whatever contracts are sorted by, they are totally preordered. -/
instance (options : QueryOptions) : Std.TransCmp (cmpContracts options) := by
  rw [cmpContracts_eq]
  infer_instance

/-- Sorted contracts stand in the order they are sorted by. -/
theorem pairwise_sort (options : QueryOptions) (contracts : List Json) :
    (sort options contracts).Pairwise fun a b => (cmpContracts options a b).isLE :=
  pairwise_mergeSort_cmp contracts

/-! ## The greatest version first -/

/-- The options of a look-up of the latest version. -/
def latestFirst : QueryOptions :=
  { limit := some 1, sortBy := some ["version"], descending := true }

/-- Contracts by version, the greatest first. -/
def cmpByVersion (a b : Json) : Ordering :=
  cmpMissingLast Version.cmp (versionOf b) (versionOf a)

theorem cmpContracts_latestFirst :
    cmpContracts latestFirst = compareLex cmpByVersion (compareOn idOf) :=
  cmpContracts_eq latestFirst

/-- Of two contracts in this order the first has no smaller version. -/
theorem cmp_of_latestFirst {a b : Json} {v w : Version}
    (ha : versionOf a = some v) (hb : versionOf b = some w)
    (h : cmpContracts latestFirst a b ≠ .gt) : Version.cmp w v ≠ .gt := by
  intro hgt
  have hcmp : cmpByVersion a b = .gt := by rw [cmpByVersion, ha, hb]; exact hgt
  rw [cmpContracts_latestFirst, compareLex, hcmp] at h
  exact h rfl

theorem perm_sort (options : QueryOptions) (contracts : List Json) :
    (sort options contracts).Perm contracts :=
  List.mergeSort_perm _ _

/-- Sorting neither adds nor drops contracts. -/
theorem mem_sort {options : QueryOptions} {contracts : List Json} {c : Json} :
    c ∈ sort options contracts ↔ c ∈ contracts :=
  List.mem_mergeSort

/-! ## What the order depends on -/

variable {options : QueryOptions} {key : String} {a a' b b' : Json}

theorem idOf_congr (ha : Json.SameBut key a a') (hkey : key ≠ "id") :
    idOf a = idOf a' := by
  rw [idOf, idOf, Json.stringField?, Json.stringField?, ha "id" hkey.symm]

theorem sortValue_congr {keys : List String} (ha : Json.SameBut key a a')
    (hkeys : keys ≠ []) (hhead : keys.head? ≠ some key) :
    sortValue keys a = sortValue keys a' := by
  cases keys with
  | nil => exact absurd rfl hkeys
  | cons column rest =>
      have hcolumn : column ≠ key := fun h => hhead (congrArg some h)
      simp only [sortValue, ValuePath.resolve, ha column hcolumn]

/-- Contracts compare alike if they differ in a property that the order does
    not depend on. -/
theorem cmpContracts_congr (hkey : ¬options.OrdersBy key)
    (ha : Json.SameBut key a a') (hb : Json.SameBut key b b') :
    cmpContracts options a b = cmpContracts options a' b' := by
  rw [QueryOptions.OrdersBy, not_or] at hkey
  obtain ⟨hid, hsorted⟩ := hkey
  simp only [cmpContracts, idOf_congr ha hid, idOf_congr hb hid]
  cases hkeys : options.sortKeys? with
  | none =>
      rw [hkeys] at hsorted
      have hcreated (c c' : Json) (h : Json.SameBut key c c') :
          c.stringField? "created_at" = c'.stringField? "created_at" := by
        have hother : "created_at" ≠ key := fun heq => hsorted (congrArg some heq)
        rw [Json.stringField?, Json.stringField?, h "created_at" hother]
      simp only [hcreated a a' ha, hcreated b b' hb]
  | some keys =>
      rw [hkeys] at hsorted
      have hne := QueryOptions.ne_nil_of_sortKeys? hkeys
      have hby : cmpByKeys keys a b = cmpByKeys keys a' b' := by
        rw [cmpByKeys, cmpByKeys]
        split
        next hversion =>
          -- by version the keys are that column
          have hhead : keys = ["version"] := beq_iff_eq.mp hversion
          have hcolumn : "version" ≠ key := by
            rintro rfl
            exact hsorted (by rw [hhead]; rfl)
          simp only [versionOf, Json.stringField?, ha _ hcolumn, hb _ hcolumn]
        next => rw [sortValue_congr ha hne hsorted, sortValue_congr hb hne hsorted]
      simp only [hby]

end Query

end LinkedContracts
