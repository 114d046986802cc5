import LinkedContracts.Proofs.Dict
import LinkedContracts.Proofs.Json.Depth
import Mathlib.Data.List.Forall2
import Mathlib.Data.List.Perm.Subperm

/-! # The order of documents

    Documents are totally preordered, and two compare as equal exactly if they
    are equal by value.

    Transitivity is proved in a form that goes through a comparison with
    several steps: two comparisons in a row, neither of which comes to greater,
    come to the first of them that is not equal.  What holds of the parts of a
    document in this form holds of the document, since a comparison of
    documents of one kind is a chain of comparisons of their parts. -/

namespace LinkedContracts

/-! ## Comparisons in a row -/

/-- Of two comparisons in a row and the comparison across both: where neither
    of the two comes to greater, it comes to the first that is not equal. -/
def Composed (first second across : Ordering) : Prop :=
  first.isLE → second.isLE → across = first.then second

theorem composed_of_transCmp {α : Type} (cmp : α → α → Ordering) [Std.TransCmp cmp]
    (a b c : α) : Composed (cmp a b) (cmp b c) (cmp a c) := by
  intro hab hbc
  cases hfirst : cmp a b with
  | lt => exact Std.TransCmp.lt_of_lt_of_isLE hfirst hbc
  | eq => exact Std.TransCmp.congr_left hfirst
  | gt =>
      rw [hfirst] at hab
      cases hab

/-- Later steps count where the earlier ones are equal. -/
theorem Composed.then {p q r p' q' r' : Ordering} (h : Composed p q r)
    (h' : p = .eq → q = .eq → Composed p' q' r') :
    Composed (p.then p') (q.then q') (r.then r') := by
  intro hp hq
  cases p with
  | gt => cases hp
  | lt =>
      have hfirst : q.isLE := by cases q <;> first | rfl | cases hq
      rw [h rfl hfirst]
      rfl
  | eq =>
      cases q with
      | gt => cases hq
      | lt =>
          rw [h rfl rfl]
          cases p' <;> first | rfl | cases hp
      | eq =>
          rw [h rfl rfl]
          exact h' rfl rfl hp hq

/-! ## Lists up to their first difference -/

section FirstDifference

variable {α : Type} {cmp : α → α → Ordering} {xs ys zs : List α}

/-- The first difference of two lists, as far as both go. -/
def firstDifference (cmp : α → α → Ordering) : List α → List α → Ordering
  | x :: xs, y :: ys => (cmp x y).then (firstDifference cmp xs ys)
  | _, _ => .eq

theorem firstDifference_swap (h : ∀ x ∈ xs, ∀ y, cmp x y = (cmp y x).swap) :
    ∀ ys, firstDifference cmp xs ys = (firstDifference cmp ys xs).swap := by
  induction xs with
  | nil =>
      intro ys
      cases ys <;> rfl
  | cons x xs ih =>
      intro ys
      obtain ⟨hx, hxs⟩ := List.forall_mem_cons.mp h
      cases ys with
      | nil => rfl
      | cons y ys =>
          rw [firstDifference, firstDifference, hx y, ih hxs ys, Ordering.swap_then]

theorem composed_firstDifference
    (h : ∀ x ∈ xs, ∀ y z, Composed (cmp x y) (cmp y z) (cmp x z))
    (hys : xs.length = ys.length) (hzs : ys.length = zs.length) :
    Composed (firstDifference cmp xs ys) (firstDifference cmp ys zs)
      (firstDifference cmp xs zs) := by
  induction xs generalizing ys zs with
  | nil =>
      obtain rfl := List.length_eq_zero_iff.mp hys.symm
      obtain rfl := List.length_eq_zero_iff.mp hzs.symm
      intro _ _
      rfl
  | cons x xs ih =>
      obtain ⟨hx, hxs⟩ := List.forall_mem_cons.mp h
      obtain ⟨y, ys, rfl⟩ := List.exists_cons_of_length_eq_add_one hys.symm
      obtain ⟨z, zs, rfl⟩ := List.exists_cons_of_length_eq_add_one hzs.symm
      exact (hx y z).then fun _ _ =>
        ih hxs (Nat.succ.inj hys) (Nat.succ.inj hzs)

/-- Lists that are compared by their lengths first are equal if their items
    are. -/
theorem then_firstDifference_eq_iff :
    (compare xs.length ys.length).then (firstDifference cmp xs ys) = .eq
      ↔ List.Forall₂ (fun x y => cmp x y = .eq) xs ys := by
  rw [Ordering.then_eq_eq, Std.LawfulEqCmp.compare_eq_iff_eq]
  constructor
  · rintro ⟨hlength, hitems⟩
    induction xs generalizing ys with
    | nil =>
        obtain rfl := List.length_eq_zero_iff.mp hlength.symm
        exact .nil
    | cons x xs ih =>
        obtain ⟨y, ys, rfl⟩ := List.exists_cons_of_length_eq_add_one hlength.symm
        obtain ⟨hx, hxs⟩ := Ordering.then_eq_eq.mp hitems
        exact .cons hx (ih (Nat.succ.inj hlength) hxs)
  · intro h
    refine ⟨h.length_eq, ?_⟩
    induction h with
    | nil => rfl
    | cons hx _ ih => exact Ordering.then_eq_eq.mpr ⟨hx, ih⟩

theorem forall₂_congr_mem {R S : α → α → Prop} (h : ∀ x ∈ xs, ∀ y ∈ ys, R x y ↔ S x y) :
    List.Forall₂ R xs ys ↔ List.Forall₂ S xs ys := by
  rw [List.forall₂_iff_zip, List.forall₂_iff_zip]
  refine and_congr_right fun _ => forall_congr' fun x => forall_congr' fun y => ?_
  refine imp_congr_right fun hmem => ?_
  obtain ⟨hx, hy⟩ := List.of_mem_zip hmem
  exact h x hx y hy

end FirstDifference

/-! ## Keys -/

namespace Dict.Sorted

variable {α β : Type} {d : Dict α} {e : Dict β}

/-- A dictionary as large as another one that has all its keys has the same
    keys. -/
theorem keys_perm (hd : d.Sorted) (hlength : d.length = e.length)
    (hkeys : ∀ key ∈ d.keys, key ∈ e.keys) : d.keys.Perm e.keys := by
  have hnodup : d.keys.Nodup := List.Pairwise.imp (fun hlt => Std.ne_of_lt hlt) hd
  exact (List.subperm_of_subset hnodup hkeys).perm_of_length_le (by simp [keys, hlength])

theorem keys_eq (hd : d.Sorted) (he : e.Sorted) (hlength : d.length = e.length)
    (hkeys : ∀ key ∈ d.keys, key ∈ e.keys) : d.keys = e.keys :=
  (hd.keys_perm hlength hkeys).eq_of_pairwise
    (fun _ _ _ _ hlt hlt' => absurd hlt' (String.lt_asymm hlt)) hd he

end Dict.Sorted

/-! ## Numbers -/

instance : Std.TransCmp Number.cmp :=
  inferInstanceAs (Std.TransCmp (compareOn fun n : Number => n.toDouble.position))

theorem Number.cmp_eq_iff {m n : Number} : m.cmp n = .eq ↔ m.eq n = true :=
  Binary64.cmp_eq_iff m.toDouble n.toDouble

namespace Json

/-- Whether the fields of objects are in order, in a document and inside it. -/
def InOrder (j : Json) : Prop := j.Throughout fun
  | .object fields => Dict.Sorted fields
  | _ => True

theorem WellFormed.inOrder {j : Json} (h : j.WellFormed) : j.InOrder := by
  intro part hpart
  have hfits := h part hpart
  cases part with
  | object fields => exact hfits
  | _ => trivial

/-! ## Kind by kind -/

theorem cmpBool_eq : cmpBool = compare := by
  funext a b
  cases a <;> cases b <;> rfl

/-- Fields are compared by key, then by value. -/
def cmpField (p q : String × Json) : Ordering :=
  (compare p.1 q.1).then (cmp p.2 q.2)

theorem cmpItems_eq (xs ys : List Json) : cmpItems xs ys = firstDifference cmp xs ys := by
  induction xs generalizing ys with
  | nil => cases ys <;> rfl
  | cons x xs ih =>
      cases ys with
      | nil => rfl
      | cons y ys => rw [cmpItems, ih, firstDifference]

theorem cmpFields_eq (xs ys : List (String × Json)) :
    cmpFields xs ys = firstDifference cmpField xs ys := by
  induction xs generalizing ys with
  | nil => cases ys <;> rfl
  | cons p xs ih =>
      cases ys with
      | nil => rfl
      | cons q ys => rw [cmpFields, ih, firstDifference, cmpField]

/-- The order of documents of one kind. -/
def cmpWithin : Json → Json → Ordering
  | .string a, .string b => compare a b
  | .number a, .number b => Number.cmp a b
  | .bool a, .bool b => compare a b
  | .array xs, .array ys =>
      (compare xs.length ys.length).then (firstDifference cmp xs ys)
  | .object xs, .object ys =>
      (compare xs.length ys.length).then (firstDifference cmpField xs ys)
  | _, _ => .eq

/-- Documents are compared by their kinds, then within their kind. -/
theorem cmp_eq_then (a b : Json) :
    cmp a b = (compare a.rank b.rank).then (cmpWithin a b) := by
  cases a <;> cases b <;>
    simp [cmp, cmpWithin, rank, cmpBool_eq, cmpItems_eq, cmpFields_eq]

/-- The documents that a document is made of. -/
def parts : Json → List Json
  | .array items => items
  | .object fields => fields.map (·.2)
  | _ => []

/-- What passes from the parts of any document to the document holds of all
    documents. -/
theorem of_parts {P : Json → Prop} (h : ∀ a, (∀ x ∈ a.parts, P x) → P a) (a : Json) :
    P a := by
  induction a using induct with
  | null | bool _ | number _ | string _ => exact h _ nofun
  | array items ih => exact h _ ih
  | object fields ih => exact h _ (List.forall_mem_map.mpr ih)

theorem cmpWithin_swap {a : Json} (h : ∀ x ∈ a.parts, ∀ y, cmp x y = (cmp y x).swap)
    (b : Json) : cmpWithin a b = (cmpWithin b a).swap := by
  have swap {α : Type} (cmp : α → α → Ordering) [Std.OrientedCmp cmp] (x y : α) :
      cmp x y = (cmp y x).swap := Std.OrientedCmp.eq_swap
  cases a with
  | null => cases b <;> rfl
  | bool x =>
      cases b with
      | bool y => exact swap compare x y
      | _ => rfl
  | number x =>
      cases b with
      | number y => exact swap Number.cmp x y
      | _ => rfl
  | string x =>
      cases b with
      | string y => exact swap compare x y
      | _ => rfl
  | array xs =>
      cases b with
      | array ys =>
          have hitems : ∀ x ∈ xs, ∀ y, cmp x y = (cmp y x).swap := h
          rw [cmpWithin, cmpWithin, Ordering.swap_then, ← swap compare,
            ← firstDifference_swap hitems ys]
      | _ => rfl
  | object xs =>
      cases b with
      | object ys =>
          have hfield : ∀ p ∈ xs, ∀ q, cmpField p q = (cmpField q p).swap := by
            intro p hp q
            rw [cmpField, cmpField, Ordering.swap_then, ← swap compare,
              ← List.forall_mem_map.mp h p hp q.2]
          rw [cmpWithin, cmpWithin, Ordering.swap_then, ← swap compare,
            ← firstDifference_swap hfield ys]
      | _ => rfl

theorem cmp_swap (a : Json) : ∀ b, cmp a b = (cmp b a).swap := by
  refine of_parts (P := fun a => ∀ b, cmp a b = (cmp b a).swap) ?_ a
  intro a h b
  have hrank : compare a.rank b.rank = (compare b.rank a.rank).swap :=
    Std.OrientedCmp.eq_swap
  rw [cmp_eq_then, cmp_eq_then, Ordering.swap_then, ← hrank, ← cmpWithin_swap h b]

/-- A comparison of documents of one kind is a chain of comparisons of their
    parts. -/
theorem composed_cmpWithin {a b c : Json}
    (h : ∀ x ∈ a.parts, ∀ y z, Composed (cmp x y) (cmp y z) (cmp x z))
    (hab : a.rank = b.rank) (hbc : b.rank = c.rank) :
    Composed (cmpWithin a b) (cmpWithin b c) (cmpWithin a c) := by
  have lengths {α : Type} {xs ys : List α} (h : compare xs.length ys.length = .eq) :
      xs.length = ys.length := Std.LawfulEqCmp.eq_of_compare h
  cases a with
  | null =>
      cases b <;> cases hab
      cases c <;> cases hbc
      intro _ _
      rfl
  | bool x =>
      cases b <;> cases hab
      cases c <;> cases hbc
      exact composed_of_transCmp compare x _ _
  | number x =>
      cases b <;> cases hab
      cases c <;> cases hbc
      exact composed_of_transCmp Number.cmp x _ _
  | string x =>
      cases b <;> cases hab
      cases c <;> cases hbc
      exact composed_of_transCmp compare x _ _
  | array xs =>
      cases b <;> cases hab
      cases c <;> cases hbc
      exact (composed_of_transCmp compare xs.length _ _).then fun hys hzs =>
        composed_firstDifference h (lengths hys) (lengths hzs)
  | object xs =>
      cases b <;> cases hab
      cases c <;> cases hbc
      refine (composed_of_transCmp compare xs.length _ _).then fun hys hzs =>
        composed_firstDifference ?_ (lengths hys) (lengths hzs)
      intro p hp q r
      exact (composed_of_transCmp compare p.1 q.1 r.1).then fun _ _ =>
        List.forall_mem_map.mp h p hp q.2 r.2

theorem composed_cmp (a : Json) : ∀ b c, Composed (cmp a b) (cmp b c) (cmp a c) := by
  refine of_parts (P := fun a => ∀ b c, Composed (cmp a b) (cmp b c) (cmp a c)) ?_ a
  intro a h b c
  rw [cmp_eq_then, cmp_eq_then, cmp_eq_then]
  exact (composed_of_transCmp compare a.rank b.rank c.rank).then fun hab hbc =>
    composed_cmpWithin h (Std.LawfulEqCmp.eq_of_compare hab)
      (Std.LawfulEqCmp.eq_of_compare hbc)

/-- Documents are totally preordered. -/
instance : Std.TransCmp cmp where
  eq_swap {a b} := cmp_swap a b
  isLE_trans {a b c} hab hbc := by
    rw [composed_cmp a b c hab hbc, Ordering.isLE_then_iff_and]
    exact ⟨hab, .inr hbc⟩

/-! ## Equal documents -/

theorem equalItems_iff {eq : Number → Number → Bool} {xs ys : List Json} :
    equalItems eq xs ys = true
      ↔ List.Forall₂ (fun x y => equalBy eq x y = true) xs ys := by
  induction xs generalizing ys with
  | nil => cases ys <;> simp [equalItems]
  | cons x xs ih => cases ys <;> simp [equalItems, ih]

/-- Fields after a key are not looked for at the key. -/
theorem equalFields_cons {eq : Number → Number → Bool} {key : String} {y : Json}
    {xs ys : List (String × Json)} (h : ∀ p ∈ xs, key < p.1) :
    equalFields eq xs ((key, y) :: ys) = equalFields eq xs ys := by
  induction xs with
  | nil => rfl
  | cons p xs ih =>
      obtain ⟨hp, hxs⟩ := List.forall_mem_cons.mp h
      have hne : key ≠ p.1 := Std.ne_of_lt hp
      rw [equalFields, equalFields, ih hxs, Dict.find?_cons, if_neg hne]

theorem keys_of_equalFields {eq : Number → Number → Bool} {xs ys : Dict Json}
    (h : equalFields eq xs ys = true) : ∀ key ∈ xs.keys, key ∈ ys.keys := by
  induction xs with
  | nil => nofun
  | cons p xs ih =>
      rw [equalFields, Bool.and_eq_true] at h
      refine List.forall_mem_cons.mpr ⟨?_, ih h.2⟩
      rw [Dict.mem_keys]
      intro hnone
      rw [hnone] at h
      cases h.1

/-- Objects in order are equal if they have the same keys and equal values at
    their keys. -/
theorem equalFields_iff {eq : Number → Number → Bool} {xs ys : Dict Json}
    (hxs : xs.Sorted) (hys : ys.Sorted) :
    (xs.length == ys.length && equalFields eq xs ys) = true
      ↔ List.Forall₂ (fun p q => p.1 = q.1 ∧ equalBy eq p.2 q.2 = true) xs ys := by
  rw [Bool.and_eq_true, beq_iff_eq]
  constructor
  · rintro ⟨hlength, hequal⟩
    have hkeys : xs.keys = ys.keys :=
      hxs.keys_eq hys hlength (keys_of_equalFields hequal)
    clear hlength
    induction xs generalizing ys with
    | nil =>
        obtain rfl := List.map_eq_nil_iff.mp hkeys.symm
        exact .nil
    | cons p xs ih =>
        obtain ⟨⟨key, y⟩, ys, rfl, hkey, hrest⟩ := List.map_eq_cons_iff.mp hkeys.symm
        obtain ⟨name, x⟩ := p
        obtain rfl : key = name := hkey
        obtain ⟨hfirst, hxs⟩ := Dict.sorted_cons.mp hxs
        obtain ⟨-, hys⟩ := Dict.sorted_cons.mp hys
        rw [equalFields, Bool.and_eq_true, Dict.find?_cons, if_pos rfl,
          equalFields_cons hfirst] at hequal
        exact .cons ⟨rfl, hequal.1⟩ (ih hxs hys hequal.2 hrest.symm)
  · intro h
    refine ⟨h.length_eq, ?_⟩
    induction h with
    | nil => rfl
    | @cons p q _ _ hhead _ ih =>
        obtain ⟨name, x⟩ := p
        obtain ⟨key, y⟩ := q
        obtain ⟨rfl, hvalue⟩ : name = key ∧ equalBy eq x y = true := hhead
        obtain ⟨hfirst, hxs⟩ := Dict.sorted_cons.mp hxs
        obtain ⟨-, hys⟩ := Dict.sorted_cons.mp hys
        rw [equalFields, Dict.find?_cons, if_pos rfl, equalFields_cons hfirst, ih hxs hys,
          Bool.and_true]
        exact hvalue

/-- Documents compare as equal if they are equal by value, and only then. -/
theorem cmp_eq_iff {a b : Json} (ha : a.InOrder) (hb : b.InOrder) :
    cmp a b = .eq ↔ a.equal b = true := by
  induction a using induct generalizing b with
  | null => cases b <;> simp [cmp, equal, equalBy, rank]
  | bool x => cases b <;> simp [cmp, equal, equalBy, rank, cmpBool_eq]
  | number m => cases b <;> simp [cmp, equal, equalBy, rank, Number.cmp_eq_iff]
  | string s => cases b <;> simp [cmp, equal, equalBy, rank]
  | array xs ih =>
      cases b with
      | array ys =>
          rw [cmp, cmpItems_eq, then_firstDifference_eq_iff]
          show _ ↔ equalItems Number.eq xs ys = true
          rw [equalItems_iff]
          exact forall₂_congr_mem fun x hx y hy =>
            ih x hx (ha.of_item hx) (hb.of_item hy)
      | _ => simp [cmp, equal, equalBy, rank]
  | object xs ih =>
      cases b with
      | object ys =>
          rw [cmp, cmpFields_eq, then_firstDifference_eq_iff]
          show _ ↔ (xs.length == ys.length && equalFields Number.eq xs ys) = true
          rw [equalFields_iff ha.self hb.self]
          refine forall₂_congr_mem fun p hp q hq => ?_
          rw [cmpField, Ordering.then_eq_eq, Std.LawfulEqCmp.compare_eq_iff_eq,
            ih p hp (ha.of_field hp) (hb.of_field hq)]
          rfl
      | _ => simp [cmp, equal, equalBy, rank]

end Json

end LinkedContracts
