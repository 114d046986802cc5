/-! # Dictionaries

    A dictionary is a list of pairs in ascending order of their keys, each
    key once.  Objects of documents, schema properties and link tables are
    all dictionaries: they have no order of their own, and walking one
    visits its keys in ascending order.

    `insert` keeps the order, and `find?` after `insert` and `erase` reads
    as it does for maps. -/

namespace LinkedContracts

/-- Pairs in ascending order of their keys. -/
abbrev Dict (α : Type) := List (String × α)

namespace Dict

variable {α β : Type}

/-- The value at `key`. -/
def find? : Dict α → String → Option α
  | [], _ => none
  | (k, v) :: rest, key => if k = key then some v else find? rest key

/-- Put `value` at `key`, in place of what was there. -/
def insert : Dict α → String → α → Dict α
  | [], key, value => [(key, value)]
  | (k, v) :: rest, key, value =>
      if k = key then (key, value) :: rest
      else if key < k then (key, value) :: (k, v) :: rest
      else (k, v) :: insert rest key value

/-- Leave out `key`. -/
def erase : Dict α → String → Dict α
  | [], _ => []
  | (k, v) :: rest, key =>
      if k = key then rest else (k, v) :: erase rest key

/-- The keys in ascending order. -/
def keys (d : Dict α) : List String := d.map (·.1)

/-- Whether `key` has a value. -/
def contains (d : Dict α) (key : String) : Bool := (find? d key).isSome

/-- Apply `f` to every value. -/
def mapValues (f : α → β) (d : Dict α) : Dict β :=
  d.map fun (k, v) => (k, f v)

/-- The dictionary of a list of pairs; of pairs with one key the last one
    counts. -/
def ofList (pairs : List (String × α)) : Dict α :=
  pairs.foldl (fun d (k, v) => insert d k v) []

/-- Keys ascend strictly. -/
def Sorted (d : Dict α) : Prop := (keys d).Pairwise (· < ·)

@[simp] theorem find?_nil (key : String) : find? ([] : Dict α) key = none :=
  rfl

theorem find?_cons (k : String) (v : α) (rest : Dict α) (key : String) :
    find? ((k, v) :: rest) key = if k = key then some v else find? rest key :=
  rfl

/-- What was put at a key is found there. -/
@[simp] theorem find?_insert_self (d : Dict α) (key : String) (value : α) :
    find? (insert d key value) key = some value := by
  induction d with
  | nil => simp [insert, find?]
  | cons p rest ih =>
      obtain ⟨k, v⟩ := p
      unfold insert
      split
      · simp [find?]
      · split
        · simp [find?]
        · next hk _ => simp [find?, hk, ih]

/-- Putting a value at one key does not touch another. -/
theorem find?_insert_of_ne (d : Dict α) {key other : String} (value : α)
    (h : key ≠ other) : find? (insert d key value) other = find? d other := by
  induction d with
  | nil => simp [insert, find?, h]
  | cons p rest ih =>
      obtain ⟨k, v⟩ := p
      unfold insert
      split
      · next hk => subst hk; simp [find?, h]
      · split
        · simp [find?, h]
        · simp only [find?, ih]

end Dict

end LinkedContracts
