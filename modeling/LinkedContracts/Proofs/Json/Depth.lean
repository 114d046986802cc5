import LinkedContracts.Proofs.Json.Integers
import LinkedContracts.Proofs.Json.Text

/-! # How deep documents nest

    A document that can be held is told again as it is, if its floating-point
    values are read back from their texts, up to the depth that is read; a
    deeper one is not told again.  Whatever is told again can be held. -/

namespace LinkedContracts

namespace Json

/-! ## Depth -/

mutual

/-- How deep a document nests. -/
def depth : Json → Nat
  | .array items => depthItems items + 1
  | .object fields => depthFields fields + 1
  | _ => 0

/-- How deep the items of an array nest. -/
def depthItems : List Json → Nat
  | [] => 0
  | x :: xs => max (depth x) (depthItems xs)

/-- How deep the values of fields nest. -/
def depthFields : List (String × Json) → Nat
  | [] => 0
  | (_, x) :: rest => max (depth x) (depthFields rest)

end

/-! ## Parts -/

/-- A document inside another one, or that one itself. -/
inductive Inside : Json → Json → Prop where
  | here (j : Json) : Inside j j
  | item {part x : Json} {items : List Json} (hx : x ∈ items) (h : Inside part x) :
      Inside part (.array items)
  | field {part : Json} {p : String × Json} {fields : List (String × Json)}
      (hp : p ∈ fields) (h : Inside part p.2) : Inside part (.object fields)

/-- Whether something holds of a document and of all documents inside it. -/
def Throughout (P : Json → Prop) (j : Json) : Prop := ∀ part, Inside part j → P part

/-- Whether numbers are in range and fields in order, of a document by itself. -/
def Fits : Json → Prop
  | .number n => n.InRange
  | .object fields => Dict.Sorted fields
  | _ => True

/-- Whether a document can be held. -/
def WellFormed (j : Json) : Prop := j.Throughout Fits

/-- Whether a document is read back from its text, if it is a floating-point
    value. -/
def DoubleLasts : Json → Prop
  | .number (.double x) => (Number.double x).retold = some (.double x)
  | _ => True

/-- Whether the floating-point values in a document are read back from their
    texts. -/
def DoublesLast (j : Json) : Prop := j.Throughout DoubleLasts

section

variable {P : Json → Prop} {items : List Json} {fields : List (String × Json)}

theorem Throughout.self {j : Json} (h : j.Throughout P) : P j := h j (.here j)

theorem Throughout.of_item (h : (Json.array items).Throughout P) {x : Json}
    (hx : x ∈ items) : x.Throughout P := fun part hpart => h part (.item hx hpart)

theorem Throughout.of_field (h : (Json.object fields).Throughout P)
    {p : String × Json} (hp : p ∈ fields) : p.2.Throughout P :=
  fun part hpart => h part (.field hp hpart)

theorem throughout_null (h : P .null) : Json.null.Throughout P := by
  rintro part ⟨⟩
  exact h

theorem throughout_bool {b : Bool} (h : P (.bool b)) : (Json.bool b).Throughout P := by
  rintro part ⟨⟩
  exact h

theorem throughout_string {s : String} (h : P (.string s)) :
    (Json.string s).Throughout P := by
  rintro part ⟨⟩
  exact h

theorem throughout_number {n : Number} (h : P (.number n)) :
    (Json.number n).Throughout P := by
  rintro part ⟨⟩
  exact h

theorem throughout_array (h : P (.array items)) (hitems : ∀ x ∈ items, x.Throughout P) :
    (Json.array items).Throughout P := by
  intro part hpart
  cases hpart with
  | here => exact h
  | item hx hpart => exact hitems _ hx part hpart

theorem throughout_object (h : P (.object fields))
    (hfields : ∀ p ∈ fields, p.2.Throughout P) : (Json.object fields).Throughout P := by
  intro part hpart
  cases hpart with
  | here => exact h
  | field hp hpart => exact hfields _ hp part hpart

end

/-! ## Told again up to a depth -/

theorem retoldItems_eq_ite {depth : Nat} {items : List Json}
    (h : ∀ x ∈ items, retold depth x = if x.depth ≤ depth then some x else none) :
    retoldItems depth items = if depthItems items ≤ depth then some items else none := by
  induction items with
  | nil => rfl
  | cons x xs ih =>
      obtain ⟨hx, hxs⟩ := List.forall_mem_cons.mp h
      rw [retoldItems, hx, ih hxs, depthItems]
      simp only [Nat.max_le]
      by_cases hd : x.depth ≤ depth <;> by_cases hds : depthItems xs ≤ depth <;>
        simp [hd, hds]

theorem retoldFields_eq_ite {depth : Nat} {fields : List (String × Json)}
    (h : ∀ p ∈ fields, retold depth p.2 = if p.2.depth ≤ depth then some p.2 else none) :
    retoldFields depth fields
      = if depthFields fields ≤ depth then some fields else none := by
  induction fields with
  | nil => rfl
  | cons p rest ih =>
      obtain ⟨key, x⟩ := p
      obtain ⟨hx, hrest⟩ := List.forall_mem_cons.mp h
      rw [retoldFields, hx, ih hrest, depthFields]
      simp only [Nat.max_le]
      by_cases hd : x.depth ≤ depth <;> by_cases hds : depthFields rest ≤ depth <;>
        simp [hd, hds]

/-- A document is told again as it is, up to the depth that is read. -/
theorem retold_eq_ite {j : Json} (hj : j.WellFormed) (hdoubles : j.DoublesLast)
    (depth : Nat) : retold depth j = if j.depth ≤ depth then some j else none := by
  induction j using induct generalizing depth with
  | null => cases depth <;> rfl
  | bool b => cases depth <;> rfl
  | string s => cases depth <;> rfl
  | number n =>
      have hn : n.retold = some n := by
        cases n with
        | int i => exact Number.retold_int hj.self
        | double x => exact hdoubles.self
      have hdepth : (Json.number n).depth ≤ depth := Nat.zero_le depth
      rw [retold, hn, Option.map_some, if_pos hdepth]
  | array items ih =>
      cases depth with
      | zero => rw [retold, Json.depth, if_neg (Nat.not_succ_le_zero _)]
      | succ depth =>
          -- an array takes one level and leaves the others to its items
          have hitems := retoldItems_eq_ite fun x hx =>
            ih x hx (hj.of_item hx) (hdoubles.of_item hx) depth
          rw [retold, hitems, Json.depth]
          by_cases hd : depthItems items ≤ depth <;> simp [hd]
  | object fields ih =>
      cases depth with
      | zero => rw [retold, Json.depth, if_neg (Nat.not_succ_le_zero _)]
      | succ depth =>
          have hfields := retoldFields_eq_ite fun p hp =>
            ih p hp (hj.of_field hp) (hdoubles.of_field hp) depth
          -- fields in order are not moved, and none replaces another
          have hsorted := Dict.Sorted.ofList_eq hj.self
          rw [retold, hfields, Json.depth]
          by_cases hd : depthFields fields ≤ depth <;> simp [hd, hsorted]

/-! ## What is told again -/

theorem exists_of_mem_retoldItems {depth : Nat} {items ys : List Json}
    (h : retoldItems depth items = some ys) :
    ∀ y ∈ ys, ∃ x ∈ items, retold depth x = some y := by
  induction items generalizing ys with
  | nil =>
      obtain rfl := Option.some.inj h
      exact nofun
  | cons x xs ih =>
      obtain ⟨y, hy, h⟩ := Option.bind_eq_some_iff.mp h
      obtain ⟨zs, hzs, rfl⟩ := Option.map_eq_some_iff.mp h
      refine List.forall_mem_cons.mpr ⟨⟨x, List.mem_cons_self, hy⟩, fun z hz => ?_⟩
      obtain ⟨w, hw, hread⟩ := ih hzs z hz
      exact ⟨w, List.mem_cons_of_mem x hw, hread⟩

theorem exists_of_mem_retoldFields {depth : Nat} {fields fs : List (String × Json)}
    (h : retoldFields depth fields = some fs) :
    ∀ q ∈ fs, ∃ p ∈ fields, retold depth p.2 = some q.2 := by
  induction fields generalizing fs with
  | nil =>
      obtain rfl := Option.some.inj h
      exact nofun
  | cons p rest ih =>
      obtain ⟨y, hy, h⟩ := Option.bind_eq_some_iff.mp h
      obtain ⟨gs, hgs, rfl⟩ := Option.map_eq_some_iff.mp h
      refine List.forall_mem_cons.mpr ⟨⟨p, List.mem_cons_self, hy⟩, fun q hq => ?_⟩
      obtain ⟨r, hr, hread⟩ := ih hgs q hq
      exact ⟨r, List.mem_cons_of_mem p hr, hread⟩

/-- Whatever is told again can be held. -/
theorem wellFormed_of_retold {depth : Nat} {j k : Json} (h : retold depth j = some k) :
    k.WellFormed := by
  induction j using induct generalizing depth k with
  | null =>
      obtain rfl : Json.null = k := by cases depth <;> exact Option.some.inj h
      exact throughout_null trivial
  | bool b =>
      obtain rfl : Json.bool b = k := by cases depth <;> exact Option.some.inj h
      exact throughout_bool trivial
  | string s =>
      obtain rfl : Json.string s = k := by cases depth <;> exact Option.some.inj h
      exact throughout_string trivial
  | number n =>
      rw [retold] at h
      obtain ⟨m, hm, rfl⟩ := Option.map_eq_some_iff.mp h
      exact throughout_number (Number.inRange_retold hm)
  | array items ih =>
      cases depth with
      | zero => cases h
      | succ depth =>
          rw [retold] at h
          obtain ⟨ys, hys, rfl⟩ := Option.map_eq_some_iff.mp h
          refine throughout_array trivial fun y hy => ?_
          obtain ⟨x, hx, hread⟩ := exists_of_mem_retoldItems hys y hy
          exact ih x hx hread
  | object fields ih =>
      cases depth with
      | zero => cases h
      | succ depth =>
          rw [retold] at h
          obtain ⟨fs, hfs, rfl⟩ := Option.map_eq_some_iff.mp h
          refine throughout_object (Dict.sorted_ofList fs) fun q hq => ?_
          obtain ⟨p, hp, hread⟩ :=
            exists_of_mem_retoldFields hfs q (Dict.mem_of_mem_ofList hq)
          exact ih p hp hread

end Json

end LinkedContracts
