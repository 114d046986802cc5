import LinkedContracts.Json

/-! # Documents and their parts

    What holds of documents is proved from their parts.  Whether two are one
    and the same is decided part by part: unlike `equal` and `same` this
    tells apart all that can be told apart. -/

namespace LinkedContracts

namespace Json

/-- What passes from the parts of a document to the document holds of all
    documents. -/
theorem induct {P : Json → Prop} (null : P .null) (bool : ∀ b, P (.bool b))
    (number : ∀ n, P (.number n)) (string : ∀ s, P (.string s))
    (array : ∀ items, (∀ x ∈ items, P x) → P (.array items))
    (object : ∀ fields, (∀ p ∈ fields, P p.2) → P (.object fields)) :
    ∀ j, P j
  | .null => null
  | .bool b => bool b
  | .number n => number n
  | .string s => string s
  | .array items => array items fun x h =>
      have := List.sizeOf_lt_of_mem h
      induct null bool number string array object x
  | .object fields => object fields fun p h =>
      have := List.sizeOf_lt_of_mem h
      have : sizeOf p.2 < sizeOf p := by
        obtain ⟨key, value⟩ := p
        show sizeOf value < 1 + sizeOf key + sizeOf value
        omega
      induct null bool number string array object p.2
termination_by j => sizeOf j

/-! ## Identity -/

mutual

/-- Whether two documents are one and the same, numbers and the order of
    fields included. -/
def identical : Json → Json → Bool
  | .null, .null => true
  | .bool a, .bool b => a == b
  | .number a, .number b => a == b
  | .string a, .string b => a == b
  | .array xs, .array ys => identicalItems xs ys
  | .object xs, .object ys => identicalFields xs ys
  | _, _ => false

def identicalItems : List Json → List Json → Bool
  | [], [] => true
  | x :: xs, y :: ys => identical x y && identicalItems xs ys
  | _, _ => false

def identicalFields : List (String × Json) → List (String × Json) → Bool
  | [], [] => true
  | (k, x) :: xs, (l, y) :: ys => k == l && identical x y && identicalFields xs ys
  | _, _ => false

end

theorem identicalItems_iff {xs : List Json}
    (h : ∀ x ∈ xs, ∀ y, identical x y = true ↔ x = y) :
    ∀ ys, identicalItems xs ys = true ↔ xs = ys := by
  induction xs with
  | nil =>
    intro ys
    cases ys <;> simp [identicalItems]
  | cons x xs ih =>
    intro ys
    obtain ⟨hx, hxs⟩ := List.forall_mem_cons.mp h
    cases ys with
    | nil => simp [identicalItems]
    | cons y ys => simp [identicalItems, hx, ih hxs]

theorem identicalFields_iff {xs : List (String × Json)}
    (h : ∀ p ∈ xs, ∀ y, identical p.2 y = true ↔ p.2 = y) :
    ∀ ys, identicalFields xs ys = true ↔ xs = ys := by
  induction xs with
  | nil =>
    intro ys
    cases ys <;> simp [identicalFields]
  | cons p xs ih =>
    intro ys
    obtain ⟨hp, hxs⟩ := List.forall_mem_cons.mp h
    cases ys with
    | nil => simp [identicalFields]
    | cons q ys => simp [identicalFields, hp, ih hxs, Prod.ext_iff]

theorem identical_iff (a : Json) : ∀ b, identical a b = true ↔ a = b := by
  induction a using induct with
  | null => intro b; cases b <;> simp [identical]
  | bool _ => intro b; cases b <;> simp [identical]
  | number _ => intro b; cases b <;> simp [identical]
  | string _ => intro b; cases b <;> simp [identical]
  | array items ih =>
    intro b
    cases b <;> simp [identical, identicalItems_iff ih]
  | object fields ih =>
    intro b
    cases b <;> simp [identical, identicalFields_iff ih]

instance : DecidableEq Json := fun a b => decidable_of_iff _ (identical_iff a b)

end Json

end LinkedContracts
