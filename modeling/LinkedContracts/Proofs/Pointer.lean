import LinkedContracts.Pointer
import LinkedContracts.Proofs.Json.Depth

/-! # Paths into documents

    A path is followed token by token.  What is put where a path leads is found
    there, what was put before at the same path is gone, and putting what is
    there already changes nothing. -/

namespace LinkedContracts

namespace Pointer

/-- Whether a token has a zero before other characters, as the index of an item
    has only where one is added. -/
def isPadded (token : String) : Bool :=
  match token.toList with
  | '0' :: _ :: _ => true
  | _ => false

theorem index?_eq_ite (token : String) (count : Nat) :
    index? token count
      = if isPadded token then none else (word? token.toList).filter (· < count) := by
  cases hpadded : isPadded token with
  | true =>
      rw [isPadded] at hpadded
      split at hpadded
      next c cs htoken =>
        rw [index?, htoken]
        rfl
      next => cases hpadded
  | false =>
      rw [index?]
      split
      next c cs htoken =>
        rw [isPadded, htoken] at hpadded
        cases hpadded
      next => rfl

end Pointer

namespace Json

variable {doc changed child v : Json} {t : String} {ts : List String}

@[simp] theorem lookup?_nil (doc : Json) : doc.lookup? [] = some doc := by
  cases doc <;> rfl

@[simp] theorem replace?_nil (doc value : Json) :
    doc.replace? [] value = some value := by
  cases doc <;> rfl

theorem lookup?_append (doc : Json) (above below : List String) :
    doc.lookup? (above ++ below) = (doc.lookup? above).bind (·.lookup? below) := by
  induction above generalizing doc with
  | nil => simp
  | cons t rest ih =>
      cases doc with
      | object fields =>
          simp only [List.cons_append, lookup?]
          cases Dict.find? fields t with
          | none => rfl
          | some child => exact ih child
      | array items =>
          simp only [List.cons_append, lookup?]
          cases (Pointer.index? t items.length).bind fun i => items[i]? with
          | none => rfl
          | some child => exact ih child
      | _ => rfl

theorem lookup?_cons (doc : Json) (t : String) (rest : List String) :
    doc.lookup? (t :: rest) = (doc.lookup? [t]).bind (·.lookup? rest) :=
  lookup?_append doc [t] rest

theorem lookup?_object (fields : Dict Json) (t : String) :
    (Json.object fields).lookup? [t] = Dict.find? fields t := by
  rw [lookup?]
  cases Dict.find? fields t <;> simp

theorem lookup?_array (items : List Json) (t : String) :
    (Json.array items).lookup? [t]
      = (Pointer.index? t items.length).bind fun i => items[i]? := by
  rw [lookup?]
  cases (Pointer.index? t items.length).bind fun i => items[i]? <;> simp

/-- A document with another value where a token leads to one. -/
def put (doc : Json) (t : String) (value : Json) : Json :=
  match doc with
  | .object fields => .object (Dict.insert fields t value)
  | .array items =>
      match Pointer.index? t items.length with
      | some i => .array (items.set i value)
      | none => .array items
  | other => other

theorem replace?_cons (doc : Json) (t : String) (rest : List String) (v : Json) :
    doc.replace? (t :: rest) v
      = (doc.lookup? [t]).bind fun child => (child.replace? rest v).map (doc.put t) := by
  cases doc with
  | object fields =>
      rw [replace?, lookup?_object]
      cases Dict.find? fields t <;> rfl
  | array items =>
      rw [replace?, lookup?_array]
      cases hi : Pointer.index? t items.length with
      | none => rfl
      | some i =>
          have hput : (Json.array items).put t = fun c => .array (items.set i c) :=
            funext fun c => by simp only [put, hi]
          rw [Option.bind_some, hput]
          cases hitem : items[i]? <;> simp [hitem]
  | _ => rfl

/-- What was put at a token is found there, if something was there before. -/
theorem lookup?_put (h : doc.lookup? [t] = some child) (v : Json) :
    (doc.put t v).lookup? [t] = some v := by
  cases doc with
  | object fields => rw [put, lookup?_object, Dict.find?_insert_self]
  | array items =>
      rw [lookup?_array] at h
      obtain ⟨i, hi, hitem⟩ := Option.bind_eq_some_iff.mp h
      have hlt : i < items.length := (List.getElem?_eq_some_iff.mp hitem).1
      simp [put, hi, lookup?_array, hlt]
  | _ => cases h

/-- Of what is put at a token in turn the last counts. -/
theorem put_put (doc : Json) (t : String) (v w : Json) :
    (doc.put t v).put t w = doc.put t w := by
  cases doc with
  | object fields => simp only [put, Dict.insert_insert]
  | array items => cases hi : Pointer.index? t items.length <;> simp [put, hi]
  | _ => rfl

/-- Putting what is there changes nothing. -/
theorem put_self (hdoc : doc.WellFormed) (h : doc.lookup? [t] = some child) :
    doc.put t child = doc := by
  cases doc with
  | object fields =>
      rw [lookup?_object] at h
      have hfields : Dict.Sorted fields := hdoc.self
      rw [put, hfields.insert_eq_self h]
  | array items =>
      rw [lookup?_array] at h
      obtain ⟨i, hi, hitem⟩ := Option.bind_eq_some_iff.mp h
      obtain ⟨hlt, rfl⟩ := List.getElem?_eq_some_iff.mp hitem
      simp [put, hi]
  | _ => rfl

theorem WellFormed.of_token (hdoc : doc.WellFormed) (h : doc.lookup? [t] = some child) :
    child.WellFormed := by
  cases doc with
  | object fields =>
      rw [lookup?_object] at h
      exact hdoc.of_field (Dict.mem_of_find? h)
  | array items =>
      rw [lookup?_array] at h
      obtain ⟨i, -, hitem⟩ := Option.bind_eq_some_iff.mp h
      exact hdoc.of_item (List.mem_of_getElem? hitem)
  | _ => cases h

/-- What was put at a path is found there. -/
theorem lookup?_of_replace? (h : doc.replace? ts v = some changed) :
    changed.lookup? ts = some v := by
  induction ts generalizing doc changed with
  | nil =>
      rw [replace?_nil] at h
      rw [lookup?_nil, ← h]
  | cons t rest ih =>
      rw [replace?_cons] at h
      obtain ⟨child, hchild, h⟩ := Option.bind_eq_some_iff.mp h
      obtain ⟨c, hc, rfl⟩ := Option.map_eq_some_iff.mp h
      rw [lookup?_cons, lookup?_put hchild, Option.bind_some, ih hc]

/-- Of what is put at a path in turn the last counts. -/
theorem replace?_of_replace? (h : doc.replace? ts v = some changed) (w : Json) :
    changed.replace? ts w = doc.replace? ts w := by
  induction ts generalizing doc changed with
  | nil => rw [replace?_nil, replace?_nil]
  | cons t rest ih =>
      rw [replace?_cons] at h
      obtain ⟨child, hchild, h⟩ := Option.bind_eq_some_iff.mp h
      obtain ⟨c, hc, rfl⟩ := Option.map_eq_some_iff.mp h
      have hput : (doc.put t c).put t = doc.put t := funext (put_put doc t c)
      rw [replace?_cons, lookup?_put hchild, Option.bind_some, ih hc, hput,
        replace?_cons, hchild, Option.bind_some]

/-- Putting what a path leads to changes nothing. -/
theorem replace?_of_lookup? (hdoc : doc.WellFormed) (h : doc.lookup? ts = some v) :
    doc.replace? ts v = some doc := by
  induction ts generalizing doc with
  | nil => rw [replace?_nil, ← h, lookup?_nil]
  | cons t rest ih =>
      rw [lookup?_cons] at h
      obtain ⟨child, hchild, h⟩ := Option.bind_eq_some_iff.mp h
      rw [replace?_cons, hchild, Option.bind_some, ih (hdoc.of_token hchild) h,
        Option.map_some, put_self hdoc hchild]

end Json

end LinkedContracts
