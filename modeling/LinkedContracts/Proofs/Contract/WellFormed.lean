import LinkedContracts.Proofs.Instant.Range
import LinkedContracts.Proofs.Json.Depth
import LinkedContracts.Proofs.Store.Restamped

/-! # Contracts that can be held

    The row of a contract is read back as the contract without its links,
    unless it nests deeper than is read.  Whatever is read back can be held. -/

namespace LinkedContracts

namespace Contract

/-- Whether a contract can be held: its documents and its times can, and its
    stamps are in order. -/
structure WellFormed (c : Contract) : Prop where
  requires : ∀ j ∈ c.requires, j.WellFormed
  capabilities : ∀ j ∈ c.capabilities, j.WellFormed
  data : c.data.WellFormed
  sorted : Dict.Sorted c.linkedAt
  linkedAt : ∀ p ∈ c.linkedAt, p.2.InRange
  createdAt : c.createdAt.InRange
  updatedAt : ∀ t, c.updatedAt = some t → t.InRange

/-- Whether the leap seconds in the times of a contract end minutes. -/
structure Aligned (c : Contract) : Prop where
  linkedAt : ∀ p ∈ c.linkedAt, p.2.Aligned
  createdAt : c.createdAt.Aligned
  updatedAt : ∀ t, c.updatedAt = some t → t.Aligned

/-- The contract without its links, its leap seconds at the ends of minutes. -/
def aligned (c : Contract) : Contract :=
  { c with
    links := []
    linkedAt := Dict.mapValues Instant.aligned c.linkedAt
    createdAt := c.createdAt.aligned
    updatedAt := c.updatedAt.map Instant.aligned }

variable {c d : Contract}

theorem mapValues_eq_self_iff {α : Type} {f : α → α} {d : Dict α} :
    Dict.mapValues f d = d ↔ ∀ p ∈ d, f p.2 = p.2 := by
  induction d with
  | nil => exact ⟨fun _ => nofun, fun _ => rfl⟩
  | cons p rest ih =>
      rw [List.forall_mem_cons, ← ih]
      simp [Dict.mapValues, Prod.ext_iff]

theorem aligned_eq_iff : c.aligned = { c with links := [] } ↔ c.Aligned := by
  have hparts : c.aligned = { c with links := [] }
      ↔ Dict.mapValues Instant.aligned c.linkedAt = c.linkedAt
        ∧ c.createdAt.aligned = c.createdAt
        ∧ c.updatedAt.map Instant.aligned = c.updatedAt := by
    simp [aligned]
  have hupdated : c.updatedAt.map Instant.aligned = c.updatedAt
      ↔ ∀ t, c.updatedAt = some t → t.Aligned := by
    cases c.updatedAt <;> simp [Instant.aligned_eq_iff]
  rw [hparts, mapValues_eq_self_iff, hupdated, Instant.aligned_eq_iff]
  simp only [Instant.aligned_eq_iff]
  exact ⟨fun ⟨hl, hc, hu⟩ => ⟨hl, hc, hu⟩, fun h => ⟨h.1, h.2, h.3⟩⟩

/-! ## Rows -/

/-- What holds of documents of each other kind by themselves, and throughout the
    documents of a contract, holds throughout its row. -/
theorem throughout_toRow {P : Json → Prop} (hnull : P .null) (hbool : ∀ b, P (.bool b))
    (hstring : ∀ s, P (.string s)) (harray : ∀ items, P (.array items))
    (hobject : ∀ fields, Dict.Sorted fields → P (.object fields))
    (hrequires : ∀ j ∈ c.requires, j.Throughout P)
    (hcapabilities : ∀ j ∈ c.capabilities, j.Throughout P)
    (hdata : c.data.Throughout P) (hsorted : Dict.Sorted c.linkedAt) :
    c.toRow.Throughout P := by
  have htext (s : String) : (Json.string s).Throughout P :=
    Json.throughout_string (hstring s)
  have htexts (texts : List String) : (Json.ofStrings texts).Throughout P := by
    refine Json.throughout_array (harray _) fun x hx => ?_
    obtain ⟨s, -, rfl⟩ := List.mem_map.mp hx
    exact htext s
  have hname : (optional .string c.name).Throughout P := by
    cases c.name with
    | none => exact Json.throughout_null hnull
    | some name => exact htext name
  have hupdated : (optional (fun t => .string t.text) c.updatedAt).Throughout P := by
    cases c.updatedAt with
    | none => exact Json.throughout_null hnull
    | some t => exact htext t.text
  have hstamps : (Json.object
      (Dict.mapValues (fun t => .string t.text) c.linkedAt)).Throughout P := by
    refine Json.throughout_object (hobject _ (hsorted.mapValues _)) fun p hp => ?_
    obtain ⟨q, -, rfl⟩ := List.mem_map.mp hp
    exact htext _
  refine Json.throughout_object (hobject _ c.sorted_rowFields) ?_
  rw [rowFields]
  simp only [List.forall_mem_cons]
  exact ⟨Json.throughout_bool (hbool _), Json.throughout_array (harray _) hcapabilities,
    htext _, hdata, htext _, hstamps, htexts _, hname,
    Json.throughout_array (harray _) hrequires, htext _, htexts _, htext _, hupdated,
    htext _, List.forall_mem_nil _⟩

theorem WellFormed.toRow (h : c.WellFormed) : c.toRow.WellFormed :=
  throughout_toRow trivial (fun _ => trivial) (fun _ => trivial) (fun _ => trivial)
    (fun _ hsorted => hsorted) h.requires h.capabilities h.data h.sorted

/-- Stamps in range are read. -/
theorem valuesOf_stamps {stamps : Dict Instant} (h : ∀ p ∈ stamps, p.2.InRange) :
    valuesOf readInstant (.object (Dict.mapValues (fun t => .string t.text) stamps))
      = some (Dict.mapValues Instant.aligned stamps) := by
  rw [valuesOf_object]
  induction stamps with
  | nil => rfl
  | cons p rest ih =>
      obtain ⟨hp, hrest⟩ := List.forall_mem_cons.mp h
      have hread : readInstant (.string p.2.text) = some p.2.aligned :=
        Instant.parse?_text_of_inRange hp
      simp only [Dict.mapValues, List.map_cons, List.mapM_cons] at ih ⊢
      rw [hread, ih hrest]
      rfl

/-- A time that may be null is read, if it is in range. -/
theorem nullable_inRange {u : Option Instant} (h : ∀ t, u = some t → t.InRange) :
    nullable readInstant (optional (fun t => .string t.text) u)
      = some (u.map Instant.aligned) := by
  cases u with
  | none => rfl
  | some t =>
      rw [optional, nullable, readInstant, Instant.parse?_text_of_inRange (h t rfl),
        Option.map_some, Option.map_some]
      rintro ⟨⟩

/-- The fields of the row of a contract are read. -/
theorem ofFields_rowFields (h : c.WellFormed) :
    ofFields (Dict.find? c.rowFields) = some c.aligned := by
  have hcreated : readInstant (.string c.createdAt.text) = some c.createdAt.aligned :=
    Instant.parse?_text_of_inRange h.createdAt
  have hread : ReadFrom (Dict.find? c.rowFields) c.aligned := by
    constructor
    case name =>
      show nullable Json.asString? (optional .string c.name) = some c.name
      cases c.name <;> rfl
    case tags => exact itemsOf_ofStrings c.tags
    case markers => exact itemsOf_ofStrings c.markers
    case linkedAt =>
      have hfield : Dict.find? c.rowFields "linked_at"
          = some (.object (Dict.mapValues (fun t => .string t.text) c.linkedAt)) := rfl
      rw [hfield, defaulted, valuesOf_stamps h.linkedAt]
      rfl
    case createdAt =>
      have hfield : Dict.find? c.rowFields "created_at" = some (.string c.createdAt.text) :=
        rfl
      rw [hfield, required, Option.bind_some, hcreated]
      rfl
    case updatedAt =>
      show nullable readInstant (optional (fun t => .string t.text) c.updatedAt)
        = some (c.updatedAt.map Instant.aligned)
      exact nullable_inRange h.updatedAt
    -- the other fields are written as they are
    all_goals rfl
  exact hread.ofFields_eq

/-- A contract is read back from its row up to the depth that is read. -/
theorem reread_eq_ite (h : c.WellFormed) (hdoubles : c.toRow.DoublesLast) :
    c.reread = if c.toRow.depth ≤ Json.maxDepth then some c.aligned else none := by
  rw [reread, Json.parse?_render, Json.retold_eq_ite h.toRow hdoubles]
  split
  · rw [Option.bind_some, toRow, ofJson?, ofFields_rowFields h]
  · rfl

/-- A contract is read back as it is, without its links, if and only if it does
    not nest too deep and its leap seconds end minutes. -/
theorem reread_eq_some_iff (h : c.WellFormed) (hdoubles : c.toRow.DoublesLast) :
    c.reread = some { c with links := [] }
      ↔ c.toRow.depth ≤ Json.maxDepth ∧ c.Aligned := by
  rw [reread_eq_ite h hdoubles, ← aligned_eq_iff]
  split
  next hdepth => simp [hdepth]
  next hdepth => simp [hdepth]

theorem reread_eq_none_iff (h : c.WellFormed) (hdoubles : c.toRow.DoublesLast) :
    c.reread = none ↔ Json.maxDepth < c.toRow.depth := by
  rw [reread_eq_ite h hdoubles]
  split
  next hdepth => simp [hdepth]
  next hdepth => simp [Nat.lt_of_not_le hdepth]

/-! ## What is read back -/

theorem inRange_of_readInstant {j : Json} {t : Instant} (h : readInstant j = some t) :
    t.InRange ∧ t.Aligned := by
  cases j with
  | string s => exact Instant.inRange_of_parse? h
  | _ => cases h

theorem wellFormed_of_asArray? {field : Option Json} {items : List Json}
    (hfield : ∀ j, field = some j → j.WellFormed)
    (h : defaulted [] Json.asArray? field = some items) : ∀ j ∈ items, j.WellFormed := by
  cases field with
  | none =>
      obtain rfl := Option.some.inj h
      exact nofun
  | some x =>
      cases x with
      | array xs =>
          obtain rfl := Option.some.inj h
          exact fun j hj => (hfield _ rfl).of_item hj
      | _ => cases h

theorem mem_of_stamps {field : Option Json} {stamps : Dict Instant}
    (h : defaulted [] (valuesOf readInstant) field = some stamps) :
    ∀ p ∈ stamps, p.2.InRange ∧ p.2.Aligned := by
  cases field with
  | none =>
      obtain rfl := Option.some.inj h
      exact nofun
  | some x =>
      cases x with
      | object fields =>
          intro p hp
          obtain ⟨j, -, hj⟩ := mem_of_valuesOf h p hp
          exact inRange_of_readInstant hj
      | _ => cases h

theorem mem_of_nullable {field : Option Json} {u : Option Instant}
    (h : defaulted none (nullable readInstant) field = some u) :
    ∀ t, u = some t → t.InRange ∧ t.Aligned := by
  rintro t rfl
  match field, h with
  | some (.string s), h =>
      obtain ⟨t', ht, heq⟩ := Option.map_eq_some_iff.mp h
      obtain rfl := Option.some.inj heq
      exact inRange_of_readInstant ht

/-- Whatever is read back from a row can be held, and its leap seconds end
    minutes. -/
theorem wellFormed_of_reread (h : c.reread = some d) : d.WellFormed ∧ d.Aligned := by
  have hsorted := sorted_linkedAt h
  obtain ⟨j, hj, hd⟩ := Option.bind_eq_some_iff.mp h
  obtain ⟨fs, rfl, -⟩ := Json.parse?_object c.sorted_rowFields hj
  have hread : ReadFrom (Dict.find? fs) d := readFrom_of_ofFields hd
  rw [Json.parse?_render] at hj
  have hobject := Json.wellFormed_of_retold hj
  have hfield (key : String) (x : Json) (hx : Dict.find? fs key = some x) :
      x.WellFormed := hobject.of_field (Dict.mem_of_find? hx)
  have hdata : d.data.WellFormed := by
    rw [← hread.data]
    cases hx : Dict.find? fs "data" with
    -- the data is an empty object where a row has none
    | none => exact Json.throughout_object Dict.sorted_nil nofun
    | some x => exact hfield _ x hx
  have hcreated : d.createdAt.InRange ∧ d.createdAt.Aligned := by
    obtain ⟨x, -, hx⟩ := Option.bind_eq_some_iff.mp hread.createdAt
    exact inRange_of_readInstant hx
  have hstamps := mem_of_stamps hread.linkedAt
  have hupdated := mem_of_nullable hread.updatedAt
  exact ⟨{ requires := wellFormed_of_asArray? (hfield _) hread.requires
           capabilities := wellFormed_of_asArray? (hfield _) hread.capabilities
           data := hdata
           sorted := hsorted
           linkedAt := fun p hp => (hstamps p hp).1
           createdAt := hcreated.1
           updatedAt := fun t ht => (hupdated t ht).1 },
         { linkedAt := fun p hp => (hstamps p hp).2
           createdAt := hcreated.2
           updatedAt := fun t ht => (hupdated t ht).2 }⟩

end Contract

end LinkedContracts
