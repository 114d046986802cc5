import LinkedContracts.Proofs.Query.Sorted
import LinkedContracts.Proofs.Sql.Ordering
import LinkedContracts.Proofs.Store.Identity
import Mathlib.Data.List.Nodup
import Mathlib.Data.List.Pairwise
import Mathlib.Data.String.Basic

/-! # Sorting and the order of the statement

    Sorting and the clause that a statement is written with order contracts by
    the same keys, but not always the same way.  A null is a value to the clause,
    the least of all, and no value to sorting; and the clause goes on to the ids
    where the numbers of two versions are the same, sorting where all of the
    versions is.  Two contracts are opposed where this makes a difference, and
    sorting follows the clause exactly if no two contracts are. -/

namespace LinkedContracts

/-! ## Versions by their numbers -/

namespace Version

/-- The numbers of a version. -/
def numbers (v : Version) : List Nat := [v.major, v.minor, v.patch]

/-- The order of versions of the same numbers. -/
def cmpSuffix (v w : Version) : Ordering :=
  (cmpPrerelease v.prerelease w.prerelease).then (compare v.build w.build)

instance : Std.OrientedCmp cmpSuffix := by
  have heq : cmpSuffix = compareLex
      (compareLex (compareOn fun v => v.prerelease.isEmpty) (compareOn prerelease))
      (compareOn build) := by
    funext v w
    rw [cmpSuffix, cmpPrerelease_eq]
    rfl
  rw [heq]
  infer_instance

/-- Versions are compared by their numbers first. -/
theorem cmp_eq_then (v w : Version) :
    cmp v w = (compare v.numbers w.numbers).then (cmpSuffix v w) := by
  simp only [cmp, cmpSuffix, numbers, List.compare_cons_cons, Ordering.then_assoc]
  rfl

/-- The numbers in the text of a version are its numbers. -/
theorem versionNumbers_text {v : Version} (h : v.Spelled) :
    Sql.versionNumbers v.text = some v.numbers := by
  have hminus := not_mem_coreChars v (c := '-') (by decide) (by decide)
  have hcore : Sql.firstPart '-' (Sql.firstPart '+' v.text.toList) = v.coreChars := by
    simp only [Sql.firstPart, toList_text, cut_append h.not_mem_plus, cut_append hminus]
  rw [Sql.versionNumbers, hcore, splitAll_coreChars]
  simp [numbers, word?_toDigits h.major, word?_toDigits h.minor, word?_toDigits h.patch]

end Version

namespace Query

open Sql (OrderClause SortKey)

/-! ## What the clause orders -/

/-- Whether a row has an id, and a version as it is stored. -/
structure Filed (row : Json) : Prop where
  id : ∃ id, row.stringField? "id" = some id
  version : ∃ v : Version, v.Spelled ∧ row.stringField? "version" = some v.text

/-- Whatever is stored is filed. -/
theorem filed_toRow {s : Store} (hs : s.Sound) {c : Contract} (hc : c ∈ s.contracts) :
    Filed c.toRow := by
  obtain ⟨v, hspelled, htext⟩ := (hs.kept_of_mem hc).version
  refine ⟨⟨c.id, rfl⟩, v, hspelled, ?_⟩
  rw [← htext]
  rfl

/-- What keys lead to in a row. -/
def valueAt (keys : List String) (row : Json) : Option Json :=
  (ValuePath.mk (.row "") keys).resolve row

theorem sortValue_eq (keys : List String) (row : Json) :
    sortValue keys row = (valueAt keys row).filter fun v => !v.isNull := rfl

variable {table : String} {keys : List String} {descending : Bool} {a b : Json}

/-- The clause compares numbers of versions. -/
theorem cmp_version (hkeys : QueryOptions.byVersion keys = true) {v w : Version}
    (hv : v.Spelled) (hw : w.Spelled) (ha : a.stringField? "version" = some v.text)
    (hb : b.stringField? "version" = some w.text) :
    (SortKey.ofKeys table keys).cmp a b = compare v.numbers w.numbers := by
  simp only [SortKey.ofKeys, hkeys, if_true, SortKey.cmp, ha, hb, Option.bind_some,
    Version.versionNumbers_text hv, Version.versionNumbers_text hw]
  rfl

/-- The clause compares what the keys lead to. -/
theorem cmp_document (hne : keys ≠ []) (hkeys : QueryOptions.byVersion keys = false) :
    (SortKey.ofKeys table keys).cmp a b
      = cmpMissingLast Json.cmp (valueAt keys a) (valueAt keys b) := by
  obtain ⟨name, rest, rfl⟩ := List.exists_cons_of_ne_nil hne
  simp only [SortKey.ofKeys, hkeys, Bool.false_eq_true, if_false, SortKey.cmp,
    Sql.Expression.value_ofKeys]
  rfl

/-- The clause compares ids as sorting does. -/
theorem cmp_id (ha : Filed a) (hb : Filed b) :
    cmpMissingLast compare (a.stringField? "id") (b.stringField? "id")
      = compare (idOf a) (idOf b) := by
  obtain ⟨i, hi⟩ := ha.id
  obtain ⟨j, hj⟩ := hb.id
  rw [idOf, idOf, hi, hj]
  rfl

/-! ## Where the two part -/

/-- An order in a direction, given the ascending one. -/
def directed (descending : Bool) (order : Ordering) : Ordering :=
  if descending then order.swap else order

/-- Whether two rows are in one order by the clause and in the other one when
    sorted. -/
inductive Opposed (keys : List String) (descending : Bool) (a b : Json) : Prop where
  /-- The versions have the same numbers, and what follows these is not in the
      order of the ids. -/
  | version {v w : Version} (hkeys : QueryOptions.byVersion keys = true)
      (ha : versionOf a = some v) (hb : versionOf b = some w)
      (hnumbers : v.numbers = w.numbers)
      (hsuffix : directed descending (v.cmpSuffix w) = .gt) (hid : idOf a < idOf b)
  /-- There is a null in the first and another value in the second; or there is
      no value in the second, and the ids are not in order. -/
  | null (hkeys : QueryOptions.byVersion keys = false)
      (ha : valueAt keys a = some .null) (hb : valueAt keys b ≠ some .null)
      (hid : valueAt keys b = none → directed descending (compare (idOf a) (idOf b)) = .gt)

@[simp] theorem directed_swap (order : Ordering) :
    directed descending order.swap = (directed descending order).swap := by
  cases descending <;> rfl

theorem directed_then (first second : Ordering) :
    directed descending (first.then second)
      = (directed descending first).then (directed descending second) := by
  cases descending with
  | false => rfl
  | true => exact Ordering.swap_then first second

theorem directed_eq_iff {order : Ordering} : directed descending order = .eq ↔ order = .eq := by
  cases descending <;> cases order <;> decide

/-- A step in between counts where there is no difference before it and it is
    against what comes after it. -/
theorem then_then_eq_iff {first step last : Ordering} (hlast : last ≠ .eq) :
    (first.then step).then last = first.then last
      ↔ ¬(first = .eq ∧ step = last.swap) := by
  cases first <;> cases step <;> cases last <;> simp at hlast ⊢

theorem compare_idOf_swap (a b : Json) :
    compare (idOf b) (idOf a) = (compare (idOf a) (idOf b)).swap :=
  Std.OrientedCmp.eq_swap

/-- By version, one row is opposed to another if the numbers are the same and
    what follows them is against the ids. -/
theorem opposed_version_iff (hkeys : QueryOptions.byVersion keys = true) {v w : Version}
    (ha : versionOf a = some v) (hb : versionOf b = some w) :
    Opposed keys descending a b ↔ v.numbers = w.numbers
      ∧ directed descending (v.cmpSuffix w) = .gt ∧ compare (idOf a) (idOf b) = .lt := by
  rw [compare_lt_iff_lt]
  constructor
  · intro h
    cases h with
    | version _ ha' hb' hnumbers hsuffix hid =>
        obtain rfl := Option.some.inj (ha.symm.trans ha')
        obtain rfl := Option.some.inj (hb.symm.trans hb')
        exact ⟨hnumbers, hsuffix, hid⟩
    | null hkeys' =>
        rw [hkeys] at hkeys'
        cases hkeys'
  · rintro ⟨hnumbers, hsuffix, hid⟩
    exact .version hkeys ha hb hnumbers hsuffix hid

/-- By anything else, one row is opposed to another if the one has a null there
    and the other does not, and the ids do not make up for it. -/
theorem opposed_null_iff (hkeys : QueryOptions.byVersion keys = false) :
    Opposed keys descending a b ↔ valueAt keys a = some .null
      ∧ valueAt keys b ≠ some .null
      ∧ (valueAt keys b = none → directed descending (compare (idOf a) (idOf b)) = .gt) := by
  constructor
  · intro h
    cases h with
    | version hkeys' =>
        rw [hkeys] at hkeys'
        cases hkeys'
    | null _ ha hb hid => exact ⟨ha, hb, hid⟩
  · rintro ⟨ha, hb, hid⟩
    exact .null hkeys ha hb hid

/-- Without the nulls a value stays, unless it is one. -/
theorem filter_of_ne_null {value : Option Json} (h : value ≠ some .null) :
    value.filter (fun v => !v.isNull) = value := by
  cases value with
  | none => rfl
  | some v =>
      cases v with
      | null => exact absurd rfl h
      | _ => rfl

/-- Beside another value a null comes first by the clause, and last when sorted;
    beside no value it comes first by the clause, and the ids decide when
    sorted. -/
theorem then_null_eq_iff {value : Option Json} (hvalue : value ≠ some .null)
    {byId : Ordering} (hid : byId ≠ .eq) :
    (directed descending (cmpMissingLast Json.cmp none value)).then byId
        = (directed descending (cmpMissingLast Json.cmp (some .null) value)).then byId
      ↔ ¬(value = none → directed descending byId = .gt) := by
  cases value with
  | none =>
      show (directed descending .eq).then byId = (directed descending .lt).then byId ↔ _
      cases descending <;> cases byId <;> simp [directed] at hid ⊢
  | some v =>
      have hfirst : Json.cmp .null v = .lt := by
        cases v with
        | null => exact absurd rfl hvalue
        | _ => rfl
      show (directed descending .gt).then byId
        = (directed descending (Json.cmp .null v)).then byId ↔ _
      rw [hfirst]
      cases descending <;> simp [directed]

/-- By anything but the version, the clause and sorting agree on two rows that
    have a null there both or neither. -/
theorem then_values_eq_iff {x y : Option Json} {byId : Ordering} (hid : byId ≠ .eq) :
    (directed descending (cmpMissingLast Json.cmp (x.filter fun v => !v.isNull)
          (y.filter fun v => !v.isNull))).then byId
        = (directed descending (cmpMissingLast Json.cmp x y)).then byId
      ↔ ¬(x = some .null ∧ y ≠ some .null
            ∧ (y = none → directed descending byId = .gt))
        ∧ ¬(y = some .null ∧ x ≠ some .null
            ∧ (x = none → directed descending byId.swap = .gt)) := by
  have hnull : (some Json.null).filter (fun v => !v.isNull) = none := rfl
  by_cases hx : x = some .null <;> by_cases hy : y = some .null
  · rw [hx, hy, hnull]
    exact iff_of_true rfl ⟨fun h => h.2.1 rfl, fun h => h.2.1 rfl⟩
  · rw [hx, hnull, filter_of_ne_null hy, then_null_eq_iff hy hid]
    simp [hy]
  · -- the other way round
    have hswap (p q : Option Json) :
        cmpMissingLast Json.cmp p q = (cmpMissingLast Json.cmp q p).swap :=
      Std.OrientedCmp.eq_swap
    have hthen (order : Ordering) :
        order.swap.then byId = (order.then byId.swap).swap := by
      rw [Ordering.swap_then, Ordering.swap_swap]
    have hid' : byId.swap ≠ .eq := fun h => hid (Ordering.swap_eq_eq.mp h)
    rw [hy, hnull, filter_of_ne_null hx, hswap x none, hswap x (some .null),
      directed_swap, directed_swap, hthen, hthen, Ordering.swap_inj,
      then_null_eq_iff hx hid']
    simp [hx]
  · rw [filter_of_ne_null hx, filter_of_ne_null hy]
    exact iff_of_true rfl ⟨fun h => hx h.1, fun h => hy h.1⟩

/-! ## One order or two -/

section

variable {options : QueryOptions}

theorem cmpContracts_sorted (hsorted : options.sortKeys? = some keys) :
    cmpContracts options a b = (directed options.descending (cmpByKeys keys a b)).then
      (compare (idOf a) (idOf b)) := by
  rw [cmpContracts, hsorted]
  rfl

theorem cmp_ofKeys (ha : Filed a) (hb : Filed b) :
    (OrderClause.ofKeys table keys descending).cmp a b
      = (directed descending ((SortKey.ofKeys table keys).cmp a b)).then
        (compare (idOf a) (idOf b)) := by
  rw [← cmp_id ha hb]
  rfl

theorem versionOf_eq {v : Version} (hv : v.Spelled)
    (ha : a.stringField? "version" = some v.text) : versionOf a = some v := by
  rw [versionOf, ha, Option.bind_some, Version.parse?_text hv]

/-- Rows of different ids are in one order unless one is opposed to the
    other. -/
theorem cmpContracts_eq_iff (table : String) (hsorted : options.sortKeys? = some keys)
    (hne : keys ≠ []) (ha : Filed a) (hb : Filed b) (hid : idOf a ≠ idOf b) :
    cmpContracts options a b = (OrderClause.ofKeys table keys options.descending).cmp a b
      ↔ ¬Opposed keys options.descending a b ∧ ¬Opposed keys options.descending b a := by
  have hids : compare (idOf a) (idOf b) ≠ .eq := fun h => hid (Std.compare_eq_iff_eq.mp h)
  have hback := compare_idOf_swap a b
  rw [cmpContracts_sorted hsorted, cmp_ofKeys ha hb]
  generalize options.descending = descending
  cases hkeys : QueryOptions.byVersion keys with
  | true =>
      obtain ⟨v, hv, hva⟩ := ha.version
      obtain ⟨w, hw, hwb⟩ := hb.version
      have hversions : cmpByKeys keys a b
          = (compare v.numbers w.numbers).then (v.cmpSuffix w) := by
        rw [cmpByKeys, if_pos hkeys, versionOf_eq hv hva, versionOf_eq hw hwb,
          ← Version.cmp_eq_then]
        rfl
      have hsuffix : w.cmpSuffix v = (v.cmpSuffix w).swap := Std.OrientedCmp.eq_swap
      rw [cmp_version hkeys hv hw hva hwb, hversions, directed_then,
        then_then_eq_iff hids, directed_eq_iff, Std.compare_eq_iff_eq,
        opposed_version_iff hkeys (versionOf_eq hv hva) (versionOf_eq hw hwb),
        opposed_version_iff hkeys (versionOf_eq hw hwb) (versionOf_eq hv hva), hback,
        hsuffix, directed_swap, eq_comm (a := w.numbers)]
      generalize compare (idOf a) (idOf b) = byId at hids
      generalize directed descending (v.cmpSuffix w) = suffix
      by_cases hnumbers : v.numbers = w.numbers <;> cases byId <;> cases suffix <;>
        simp [hnumbers] at hids ⊢
  | false =>
      have hvalues : cmpByKeys keys a b
          = cmpMissingLast Json.cmp (sortValue keys a) (sortValue keys b) := by
        rw [cmpByKeys, hkeys]
        exact if_neg Bool.false_ne_true
      rw [hvalues, sortValue_eq, sortValue_eq, cmp_document hne hkeys,
        opposed_null_iff hkeys, opposed_null_iff hkeys, hback]
      exact then_values_eq_iff hids

/-- No row is opposed to itself. -/
theorem not_opposed_self (row : Json) : ¬Opposed keys descending row row := by
  intro h
  cases h with
  | version _ _ _ _ _ hid => exact lt_irrefl _ hid
  | null _ ha hb => exact hb ha

/-- By the clause a sorted row comes before a later one unless the two are
    opposed. -/
theorem isLE_cmp_iff (hsorted : options.sortKeys? = some keys) (hne : keys ≠ [])
    (ha : Filed a) (hb : Filed b) (hid : idOf a ≠ idOf b)
    (h : (cmpContracts options a b).isLE) :
    ((OrderClause.ofKeys table keys options.descending).cmp a b).isLE
      ↔ ¬Opposed keys options.descending a b ∧ ¬Opposed keys options.descending b a := by
  rw [← cmpContracts_eq_iff table hsorted hne ha hb hid]
  have hids : compare (idOf a) (idOf b) ≠ .eq := fun h => hid (Std.compare_eq_iff_eq.mp h)
  have hclause : (OrderClause.ofKeys table keys options.descending).cmp a b ≠ .eq := by
    rw [cmp_ofKeys ha hb]
    exact fun h => hids (Ordering.then_eq_eq.mp h).2
  have hsorting : cmpContracts options a b ≠ .eq := fun h => hid (idOf_eq_of_cmpContracts h)
  revert hclause hsorting h
  generalize cmpContracts options a b = sorting
  generalize (OrderClause.ofKeys table keys options.descending).cmp a b = clause
  cases sorting <;> cases clause <;> simp

/-- The clause of a statement orders by what the keys of its options lead to, by
    the numbers of the versions if that is the version, and then by the ids.
    Sorting puts stored rows in an order in which a row comes before a later one
    by the clause exactly if the two are not opposed.  So it follows the clause
    exactly if no two rows are opposed. -/
theorem sort_in_clause_order {rows : List Json} (table : String)
    (hsorted : options.sortKeys? = some keys) (hrows : ∀ row ∈ rows, Filed row)
    (hids : (rows.map idOf).Nodup) :
    let clause := OrderClause.ofKeys table keys options.descending
    clause.text = orderText table options
      ∧ (sort options rows).Perm rows
      ∧ (sort options rows).Pairwise (fun a b => (clause.cmp a b).isLE
          ↔ ¬Opposed keys options.descending a b ∧ ¬Opposed keys options.descending b a)
      ∧ ((sort options rows).Pairwise (fun a b => (clause.cmp a b).isLE)
        ↔ ∀ a ∈ rows, ∀ b ∈ rows, ¬Opposed keys options.descending a b) := by
  intro clause
  have hne := QueryOptions.ne_nil_of_sortKeys? hsorted
  have hperm := perm_sort options rows
  have hapart : (sort options rows).Pairwise fun a b => idOf a ≠ idOf b :=
    List.pairwise_map.mp ((hperm.map idOf).nodup_iff.mpr hids)
  have hpairs : (sort options rows).Pairwise fun a b => (clause.cmp a b).isLE
      ↔ ¬Opposed keys options.descending a b ∧ ¬Opposed keys options.descending b a :=
    ((pairwise_sort options rows).and hapart).imp_of_mem fun ha hb ⟨hle, hid⟩ =>
      isLE_cmp_iff hsorted hne (hrows _ (hperm.mem_iff.mp ha)) (hrows _ (hperm.mem_iff.mp hb))
        hid hle
  refine ⟨OrderClause.text_ofKeys table hsorted, hperm, hpairs, fun hclause => ?_, fun h => ?_⟩
  · have hnone : (sort options rows).Pairwise fun a b =>
        ¬Opposed keys options.descending a b ∧ ¬Opposed keys options.descending b a :=
      (hpairs.and hclause).imp fun ⟨hiff, hle⟩ => hiff.mp hle
    have hsymm : Std.Symm fun a b : Json =>
        ¬Opposed keys options.descending a b ∧ ¬Opposed keys options.descending b a :=
      ⟨fun _ _ => And.symm⟩
    intro a ha b hb
    exact (hnone.forall_of_forall (fun c _ => ⟨not_opposed_self c, not_opposed_self c⟩)
      (hperm.mem_iff.mpr ha) (hperm.mem_iff.mpr hb)).1
  · refine hpairs.imp_of_mem fun {a b} ha hb hiff => hiff.mpr ?_
    have ha' := hperm.mem_iff.mp ha
    have hb' := hperm.mem_iff.mp hb
    exact ⟨h a ha' b hb', h b hb' a ha'⟩

end

/-! ## Contracts by their names -/

namespace Names

/-- A row with an id and a name. -/
def named (id : String) (name : Json) : Json :=
  .object [("id", .string id), ("name", name), ("version", .string Version.initial.text)]

theorem filed_named (id : String) (name : Json) : Filed (named id name) :=
  ⟨⟨id, rfl⟩, Version.initial, Version.initial_spelled, rfl⟩

/-- By name. -/
def byName : QueryOptions := { sortBy := some ["name"] }

theorem sortKeys?_byName : byName.sortKeys? = some ["name"] := rfl

/-- The clause for contracts by name. -/
def clause : OrderClause := .ofKeys "contracts" ["name"] byName.descending

end Names

open Names

/-- Contracts that have names are sorted by the clause. -/
theorem sort_in_clause_order_named :
    let rows := [named "a" (.string "B"), named "b" (.string "A")]
    clause.text = orderText "contracts" byName
      ∧ (sort byName rows).Pairwise fun a b => (clause.cmp a b).isLE := by
  intro rows
  have hrows : ∀ row ∈ rows, Filed row := by
    simp [rows, filed_named]
  obtain ⟨htext, -, -, hsorted⟩ := sort_in_clause_order "contracts" sortKeys?_byName hrows
    (by decide)
  refine ⟨htext, hsorted.mpr fun a ha b hb h => ?_⟩
  cases h with
  | version hkeys => cases hkeys
  | null _ hnull =>
      simp only [rows, List.mem_cons, List.not_mem_nil, or_false] at ha
      rcases ha with rfl | rfl <;> cases hnull

/-- A contract without a name comes before one that has a name by the clause, and
    after it when sorted. -/
theorem sort_null_last :
    let unnamed := named "a" .null
    let other := named "b" (.string "B")
    Filed unnamed ∧ Filed other ∧ idOf unnamed ≠ idOf other
      ∧ clause.text = orderText "contracts" byName
      ∧ clause.text = "coalesce(to_jsonb(\"contracts\".\"name\"), 'null'::jsonb) ASC, "
        ++ "\"contracts\".\"id\" ASC"
      ∧ clause.cmp unnamed other = .lt
      ∧ sort byName [unnamed, other] = [other, unnamed] := by
  intro unnamed other
  have hgt : cmpContracts byName unnamed other = .gt := by decide +kernel
  have htext := OrderClause.text_ofKeys "contracts" sortKeys?_byName
  refine ⟨filed_named _ _, filed_named _ _, by decide, htext, by decide +kernel,
    by decide +kernel, ?_⟩
  simp [sort, List.mergeSort, List.MergeSort.Internal.splitInTwo, hgt]

end Query

end LinkedContracts
