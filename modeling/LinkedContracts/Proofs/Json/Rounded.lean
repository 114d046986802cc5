import LinkedContracts.Proofs.Json.Order
import LinkedContracts.Proofs.Numeric.Rounding

/-! # Documents of integers, as they are compared

    Numbers are compared as floating-point values.  Documents whose numbers are
    integers are therefore equal exactly if they are the same once each of their
    numbers is rounded, which makes no difference up to `2 ^ 53`. -/

namespace LinkedContracts

/-- A number as it is compared, if it is an integer. -/
def Number.rounded : Number → Number
  | .int i => .int (Binary64.roundedInt i)
  | .double x => .double x

theorem Number.eq_int_iff {i j : Int} (hi : (Number.int i).InRange)
    (hj : (Number.int j).InRange) :
    (Number.int i).eq (.int j) = true
      ↔ (Number.int i).rounded = (Number.int j).rounded := by
  have bits {i : Int} (hi : (Number.int i).InRange) : i.natAbs < 2 ^ 64 := by
    obtain ⟨hlow, hhigh⟩ := hi
    omega
  rw [rounded, rounded, Number.int.injEq]
  exact Binary64.eq_ofInt_iff (bits hi) (bits hj)

namespace Json

/-! ## Numbers in place -/

mutual

/-- A document with another number in the place of each. -/
def mapNumbers (f : Number → Number) : Json → Json
  | .number n => .number (f n)
  | .array items => .array (mapItems f items)
  | .object fields => .object (mapFields f fields)
  | j => j

/-- Items with another number in the place of each. -/
def mapItems (f : Number → Number) : List Json → List Json
  | [] => []
  | x :: xs => mapNumbers f x :: mapItems f xs

/-- Fields with another number in the place of each. -/
def mapFields (f : Number → Number) : List (String × Json) → List (String × Json)
  | [] => []
  | (key, x) :: rest => (key, mapNumbers f x) :: mapFields f rest

end

section

variable {f : Number → Number}

theorem mapItems_eq (items : List Json) : mapItems f items = items.map (mapNumbers f) := by
  induction items with
  | nil => rfl
  | cons x xs ih => rw [mapItems, ih, List.map_cons]

theorem mapFields_eq (fields : List (String × Json)) :
    mapFields f fields = fields.map fun p => (p.1, mapNumbers f p.2) := by
  induction fields with
  | nil => rfl
  | cons p rest ih => rw [mapFields, ih, List.map_cons]

/-- Numbers that are left alone leave the document alone. -/
theorem mapNumbers_eq_self {j : Json} (h : ∀ n, Inside (.number n) j → f n = n) :
    j.mapNumbers f = j := by
  induction j using induct with
  | null => rfl
  | bool b => rfl
  | number n => rw [mapNumbers, h n (.here _)]
  | string s => rfl
  | array items ih =>
      rw [mapNumbers, mapItems_eq]
      have hitems : ∀ x ∈ items, mapNumbers f x = x := fun x hx =>
        ih x hx fun n hn => h n (.item hx hn)
      rw [List.map_congr_left hitems, List.map_id']
  | object fields ih =>
      rw [mapNumbers, mapFields_eq]
      have hfields : ∀ p ∈ fields, (p.1, mapNumbers f p.2) = p := fun p hp =>
        congrArg (p.1, ·) (ih p hp fun n hn => h n (.field hp hn))
      rw [List.map_congr_left hfields, List.map_id']

/-- Documents are equal by value if they are the same after a change of their
    numbers that makes the same of equal numbers, and of no others. -/
theorem equal_iff_mapNumbers {a b : Json} (ha : a.InOrder) (hb : b.InOrder)
    (h : ∀ m n, Inside (.number m) a → Inside (.number n) b →
      (m.eq n = true ↔ f m = f n)) :
    a.equal b = true ↔ a.mapNumbers f = b.mapNumbers f := by
  induction a using induct generalizing b with
  | null => cases b <;> simp [equal, equalBy, mapNumbers]
  | bool x => cases b <;> simp [equal, equalBy, mapNumbers]
  | string s => cases b <;> simp [equal, equalBy, mapNumbers]
  | number m =>
      cases b with
      | number n =>
          rw [mapNumbers, mapNumbers, Json.number.injEq]
          exact h m n (.here _) (.here _)
      | _ => simp [equal, equalBy, mapNumbers]
  | array xs ih =>
      cases b with
      | array ys =>
          show equalItems Number.eq xs ys = true ↔ _
          rw [equalItems_iff, mapNumbers, mapNumbers, Json.array.injEq, mapItems_eq,
            mapItems_eq, ← List.forall₂_eq_eq_eq, List.forall₂_map_left_iff,
            List.forall₂_map_right_iff]
          exact forall₂_congr_mem fun x hx y hy =>
            ih x hx (ha.of_item hx) (hb.of_item hy)
              fun m n hm hn => h m n (.item hx hm) (.item hy hn)
      | _ => simp [equal, equalBy, mapNumbers]
  | object xs ih =>
      cases b with
      | object ys =>
          show (xs.length == ys.length && equalFields Number.eq xs ys) = true ↔ _
          rw [equalFields_iff ha.self hb.self, mapNumbers, mapNumbers, Json.object.injEq,
            mapFields_eq, mapFields_eq, ← List.forall₂_eq_eq_eq,
            List.forall₂_map_left_iff, List.forall₂_map_right_iff]
          refine forall₂_congr_mem fun p hp q hq => ?_
          rw [Prod.mk.injEq]
          exact and_congr_right fun _ => ih p hp (ha.of_field hp) (hb.of_field hq)
            fun m n hm hn => h m n (.field hp hm) (.field hq hn)
      | _ => simp [equal, equalBy, mapNumbers]

end

/-! ## Documents of integers -/

/-- Whether all numbers of a document that can be held are integers. -/
structure Integral (j : Json) : Prop where
  wellFormed : j.WellFormed
  whole : ∀ x, ¬Inside (.number (.double x)) j

/-- A document with its integers rounded to 53 binary digits. -/
def rounded (j : Json) : Json := j.mapNumbers Number.rounded

/-- Whether the integers in a document are no larger than a bound. -/
def Within (bound : Nat) (j : Json) : Prop :=
  ∀ i, Inside (.number (.int i)) j → i.natAbs ≤ bound

theorem Integral.int_of_inside {j : Json} (h : j.Integral) {n : Number}
    (hn : Inside (.number n) j) : ∃ i, n = .int i ∧ (Number.int i).InRange := by
  have hrange : n.InRange := h.wellFormed _ hn
  cases n with
  | int i => exact ⟨i, rfl, hrange⟩
  | double x => exact (h.whole x hn).elim

theorem integral_int {i : Int} (h : (Number.int i).InRange) :
    (Json.number (.int i)).Integral :=
  ⟨throughout_number h, fun _ hx => nomatch hx⟩

theorem within_int {i : Int} {bound : Nat} :
    (Json.number (.int i)).Within bound ↔ i.natAbs ≤ bound := by
  constructor
  · intro h
    exact h i (.here _)
  · rintro h j ⟨⟩
    exact h

/-- Documents of integers are equal by value if they are rounded to one
    document. -/
theorem Integral.equal_iff {a b : Json} (ha : a.Integral) (hb : b.Integral) :
    a.equal b = true ↔ a.rounded = b.rounded := by
  refine equal_iff_mapNumbers ha.wellFormed.inOrder hb.wellFormed.inOrder ?_
  intro m n hm hn
  obtain ⟨i, rfl, hi⟩ := ha.int_of_inside hm
  obtain ⟨j, rfl, hj⟩ := hb.int_of_inside hn
  exact Number.eq_int_iff hi hj

theorem rounded_of_within {j : Json} (h : j.Within (2 ^ 53)) : j.rounded = j := by
  refine mapNumbers_eq_self fun n hn => ?_
  cases n with
  | int i => exact congrArg Number.int (Binary64.roundedInt_of_le (h _ hn))
  | double x => rfl

theorem Within.mono {m n : Nat} (hle : m ≤ n) {j : Json} (h : j.Within m) :
    j.Within n :=
  fun i hi => Nat.le_trans (h i hi) hle

end Json

end LinkedContracts
