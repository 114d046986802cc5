import LinkedContracts.Proofs.Store.Replaced

/-! # Contracts read back with other stamps

    The stamps of a contract are read back apart from the rest of it: with
    other stamps, the rest is read back as it was.

    A contract lasts if its row says all of it but the stamps.  Not every
    contract does: a document may nest deeper than can be read, and the text of
    a number may be read as a neighbour of it. -/

namespace LinkedContracts

namespace Json

theorem exists_retoldFields {depth : Nat} {fields : List (String × Json)}
    (h : ∀ p ∈ fields, ∃ x, retold depth p.2 = some x) :
    ∃ fs, retoldFields depth fields = some fs := by
  induction fields with
  | nil => exact ⟨[], rfl⟩
  | cons p rest ih =>
      obtain ⟨⟨x, hx⟩, hrest⟩ := List.forall_mem_cons.mp h
      obtain ⟨fs, hfs⟩ := ih hrest
      exact ⟨(p.1, x) :: fs, by simp [retoldFields, hx, hfs]⟩

theorem retold_of_mem {depth : Nat} {fields fs : List (String × Json)}
    (h : retoldFields depth fields = some fs) :
    ∀ p ∈ fields, ∃ x, retold depth p.2 = some x := by
  induction fields generalizing fs with
  | nil => exact nofun
  | cons p rest ih =>
      obtain ⟨k, y⟩ := p
      obtain ⟨x, hx, h⟩ := Option.bind_eq_some_iff.mp h
      obtain ⟨ys, hys, -⟩ := Option.map_eq_some_iff.mp h
      exact List.forall_mem_cons.mpr ⟨⟨x, hx⟩, ih hys⟩

/-- Texts by name are told again, in order of the names. -/
theorem retold_texts (depth : Nat) (texts : Dict String) :
    retold (depth + 1) (.object (Dict.mapValues .string texts))
      = some (.object (Dict.ofList (Dict.mapValues .string texts))) := by
  rw [retold, retoldFields_eq, Option.map_some]
  intro p hp
  obtain ⟨q, -, rfl⟩ := List.mem_map.mp hp
  rfl

end Json

namespace Contract

variable {α : Type} {c d : Contract} {stamps : Dict Instant}

/-! ## Rows that are read -/

/-- What is read from the fields of a row, told again, is read back. -/
theorem reread_of_readFrom
    (hfields : ∀ p ∈ c.rowFields, ∃ x, Json.retold (Json.maxDepth - 1) p.2 = some x)
    (h : ReadFrom (fun key => (Dict.find? c.rowFields key).bind
      (Json.retold (Json.maxDepth - 1))) d) : c.reread = some d := by
  obtain ⟨fs, hfs⟩ := Json.exists_retoldFields hfields
  have hparse : Json.parse? c.toRow.render = some (.object (Dict.ofList fs)) := by
    rw [Json.parse?_render]
    show (Json.retoldFields (Json.maxDepth - 1) c.rowFields).map _ = _
    rw [hfs]
    rfl
  obtain ⟨fields, hobject, hfind⟩ := Json.parse?_object c.sorted_rowFields hparse
  obtain rfl := Json.object.inj hobject
  rw [reread, hparse]
  show ofFields (Dict.find? (Dict.ofList fs)) = some d
  rw [funext hfind]
  exact h.ofFields_eq

theorem retold_of_reread (h : c.reread = some d) :
    ∀ p ∈ c.rowFields, ∃ x, Json.retold (Json.maxDepth - 1) p.2 = some x := by
  obtain ⟨j, hj, -⟩ := Option.bind_eq_some_iff.mp h
  rw [Json.parse?_render] at hj
  obtain ⟨fs, hfs, -⟩ := Option.map_eq_some_iff.mp hj
  exact Json.retold_of_mem hfs

/-! ## Values by name -/

theorem keys_of_valuesOf {read : Json → Option α} {fields : Dict Json} {values : Dict α}
    (h : valuesOf read (.object fields) = some values) :
    Dict.keys values = Dict.keys fields := by
  rw [valuesOf_object] at h
  induction fields generalizing values with
  | nil =>
      obtain rfl := Option.some.inj h
      rfl
  | cons p rest ih =>
      rw [List.mapM_cons] at h
      obtain ⟨q, hq, h⟩ := Option.bind_eq_some_iff.mp h
      obtain ⟨others, hothers, h⟩ := Option.bind_eq_some_iff.mp h
      obtain rfl := Option.some.inj h
      obtain ⟨a, -, rfl⟩ := Option.map_eq_some_iff.mp hq
      simpa [Dict.keys] using ih hothers

theorem mem_of_valuesOf {read : Json → Option α} {fields : Dict Json} {values : Dict α}
    (h : valuesOf read (.object fields) = some values) :
    ∀ q ∈ values, ∃ v, (q.1, v) ∈ fields ∧ read v = some q.2 := by
  rw [valuesOf_object] at h
  induction fields generalizing values with
  | nil =>
      obtain rfl := Option.some.inj h
      exact nofun
  | cons p rest ih =>
      rw [List.mapM_cons] at h
      obtain ⟨q, hq, h⟩ := Option.bind_eq_some_iff.mp h
      obtain ⟨others, hothers, h⟩ := Option.bind_eq_some_iff.mp h
      obtain rfl := Option.some.inj h
      obtain ⟨a, ha, rfl⟩ := Option.map_eq_some_iff.mp hq
      refine List.forall_mem_cons.mpr ⟨⟨p.2, List.mem_cons_self, ha⟩, fun q hq => ?_⟩
      obtain ⟨v, hv, hread⟩ := ih hothers q hq
      exact ⟨v, List.mem_cons_of_mem _ hv, hread⟩

/-- Values are read from what they are written as. -/
theorem valuesOf_mapValues {read : Json → Option α} {write : α → Json} {values : Dict α}
    (h : ∀ p ∈ values, read (write p.2) = some p.2) :
    valuesOf read (.object (Dict.mapValues write values)) = some values := by
  rw [valuesOf_object]
  induction values with
  | nil => rfl
  | cons p rest ih =>
      obtain ⟨hp, hrest⟩ := List.forall_mem_cons.mp h
      have htail := ih hrest
      simp only [Dict.mapValues] at htail ⊢
      simp [hp, htail]

/-! ## Stamps -/

/-- Whether stamps are read back from their texts as they are. -/
def Punctual (stamps : Dict Instant) : Prop :=
  ∀ p ∈ stamps, Instant.parse? p.2.text = some p.2

/-- The stamps of a contract as texts, told again. -/
theorem retold_stamps (stamps : Dict Instant) :
    Json.retold (Json.maxDepth - 1)
        (.object (Dict.mapValues (fun t => .string t.text) stamps))
      = some (.object (Dict.ofList
          (Dict.mapValues (fun t => .string t.text) stamps))) := by
  have htexts : Dict.mapValues (fun t : Instant => Json.string t.text) stamps
      = Dict.mapValues .string (Dict.mapValues Instant.text stamps) := by
    simp [Dict.mapValues]
  rw [htexts]
  exact Json.retold_texts _ _

/-- Stamps are read back as stamps. -/
theorem valuesOf_of_reread (h : c.reread = some d) :
    valuesOf readInstant (.object (Dict.ofList
      (Dict.mapValues (fun t => .string t.text) c.linkedAt))) = some d.linkedAt := by
  have hread := (readFrom_of_reread h).linkedAt
  have hfield : Dict.find? c.rowFields "linked_at"
      = some (.object (Dict.mapValues (fun t => .string t.text) c.linkedAt)) := rfl
  rwa [hfield, Option.bind_some, retold_stamps] at hread

theorem sorted_linkedAt (h : c.reread = some d) : Dict.Sorted d.linkedAt := by
  rw [Dict.Sorted, keys_of_valuesOf (valuesOf_of_reread h)]
  exact Dict.sorted_ofList _

/-- The stamps of a contract that was read back are read as they are. -/
theorem punctual_of_reread (h : c.reread = some d) : Punctual d.linkedAt := by
  intro q hq
  obtain ⟨v, hv, hread⟩ := mem_of_valuesOf (valuesOf_of_reread h) q hq
  obtain ⟨p, -, hp⟩ := List.mem_map.mp (Dict.mem_of_mem_ofList hv)
  obtain rfl := (Prod.mk.inj hp).2
  have hparse : Instant.parse? p.2.text = some q.2 := hread
  rw [Instant.text_of_parse? hparse, hparse]

/-- With other stamps a contract is read back as it was, with what is read of
    them. -/
theorem reread_restamped (h : c.reread = some d) {again : Dict Instant}
    (hagain : valuesOf readInstant (.object (Dict.ofList
      (Dict.mapValues (fun t => .string t.text) stamps))) = some again) :
    ({ c with linkedAt := stamps } : Contract).reread
      = some { d with linkedAt := again } := by
  have hread := readFrom_of_reread h
  have hfields : ∀ p ∈ ({ c with linkedAt := stamps } : Contract).rowFields,
      ∃ x, Json.retold (Json.maxDepth - 1) p.2 = some x := by
    have hold := retold_of_reread h
    rw [rowFields] at hold ⊢
    simp only [List.forall_mem_cons] at hold ⊢
    -- the stamps are in the sixth column
    obtain ⟨hactive, hcapabilities, hcreatedAt, hdata, hid, -, hrest⟩ := hold
    exact ⟨hactive, hcapabilities, hcreatedAt, hdata, hid, ⟨_, retold_stamps stamps⟩, hrest⟩
  refine reread_of_readFrom hfields ?_
  constructor
  case linkedAt =>
    have hfield : Dict.find? ({ c with linkedAt := stamps } : Contract).rowFields
        "linked_at" = some (.object (Dict.mapValues (fun t => .string t.text) stamps)) :=
      rfl
    rw [hfield, Option.bind_some, retold_stamps]
    exact hagain
  case id => exact hread.id
  case slug => exact hread.slug
  case type => exact hread.type
  case version => exact hread.version
  case name => exact hread.name
  case active => exact hread.active
  case tags => exact hread.tags
  case markers => exact hread.markers
  case requires => exact hread.requires
  case capabilities => exact hread.capabilities
  case links => exact hread.links
  case createdAt => exact hread.createdAt
  case updatedAt => exact hread.updatedAt
  case data => exact hread.data

/-- With stamps that are read as they are a contract is read back with them. -/
theorem reread_punctual (h : c.reread = some d) (hsorted : Dict.Sorted stamps)
    (hstamps : Punctual stamps) :
    ({ c with linkedAt := stamps } : Contract).reread
      = some { d with linkedAt := stamps } := by
  have hmapped : Dict.Sorted
      (Dict.mapValues (fun t : Instant => Json.string t.text) stamps) := by
    have hkeys : Dict.keys (Dict.mapValues (fun t : Instant => Json.string t.text) stamps)
        = Dict.keys stamps := by
      simp [Dict.keys, Dict.mapValues]
    rw [Dict.Sorted, hkeys]
    exact hsorted
  refine reread_restamped h ?_
  rw [hmapped.ofList_eq]
  exact valuesOf_mapValues hstamps

/-! ## Times of creation -/

theorem parse?_createdAt (h : c.reread = some d) :
    Instant.parse? c.createdAt.text = some d.createdAt := by
  have hcreatedAt := (readFrom_of_reread h).createdAt
  have hfield : Dict.find? c.rowFields "created_at" = some (.string c.createdAt.text) := rfl
  simpa only [hfield, Option.bind_some, Json.retold, required, readInstant] using hcreatedAt

/-- The time of creation of a contract that was read back is read from its own
    text. -/
theorem createdAt_of_reread (h : c.reread = some d) :
    Instant.parse? d.createdAt.text = some d.createdAt := by
  have hread := parse?_createdAt h
  rwa [Instant.text_of_parse? hread]

/-! ## Contracts that last -/

/-- Whether all of a contract but its stamps is read back from its row. -/
def Lasts (c : Contract) : Prop :=
  ∃ stamps, c.reread = some { c with linkedAt := stamps }

theorem Lasts.createdAt (h : c.Lasts) :
    Instant.parse? c.createdAt.text = some c.createdAt := by
  obtain ⟨stamps, hread⟩ := h
  have hcreatedAt := parse?_createdAt hread
  exact hcreatedAt

/-- A contract that was read and lasts is read back with another stamp. -/
theorem Lasts.stamped (h : d.Lasts) (hread : c.reread = some d) (name : String)
    {since : Instant} (hsince : Instant.parse? since.text = some since) :
    ({ d with linkedAt := Dict.insert d.linkedAt name since } : Contract).reread
      = some { d with linkedAt := Dict.insert d.linkedAt name since } := by
  obtain ⟨stamps, hlasts⟩ := h
  have hpunctual : Punctual (Dict.insert d.linkedAt name since) := by
    intro p hp
    rcases Dict.mem_of_mem_insert hp with rfl | hp
    · exact hsince
    · exact punctual_of_reread hread p hp
  have hagain := reread_punctual hlasts ((sorted_linkedAt hread).insert name since) hpunctual
  exact hagain

end Contract

end LinkedContracts
