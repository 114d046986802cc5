import LinkedContracts.Proofs.Instant
import LinkedContracts.Proofs.Patch.Frame
import LinkedContracts.Proofs.Store.Identity

/-! # What a replaced contract keeps

    The document of a contract is read and then written in the place of the
    contract.  What the document still says of the contract is in the row
    that is written: a part of it is written as it was read. -/

namespace LinkedContracts

namespace Contract

variable {α : Type} {field : String → Option Json} {c : Contract}

/-! ## Fields written as they were read -/

/-- Whether what is read is written as it was. -/
def Exact (write : α → Json) (read : Json → Option α) : Prop :=
  ∀ j a, read j = some a → write a = j

theorem exact_string : Exact .string Json.asString? := by
  intro j s h
  cases j with
  | string => rw [Option.some.inj h]
  | _ => cases h

theorem exact_array : Exact .array Json.asArray? := by
  intro j items h
  cases j with
  | array => rw [Option.some.inj h]
  | _ => cases h

theorem exact_bool : Exact .bool readBool := by
  intro j b h
  cases j with
  | bool => rw [Option.some.inj h]
  | _ => cases h

theorem exact_items {write : α → Json} {read : Json → Option α}
    (h : Exact write read) :
    Exact (fun items => .array (items.map write)) (itemsOf read) := by
  intro j items hitems
  cases j with
  | array js =>
      have hitems : js.mapM read = some items := hitems
      suffices heq : items.map write = js from congrArg Json.array heq
      induction js generalizing items with
      | nil => obtain rfl := Option.some.inj hitems; rfl
      | cons j js ih =>
          rw [List.mapM_cons] at hitems
          obtain ⟨a, ha, hitems⟩ := Option.bind_eq_some_iff.mp hitems
          obtain ⟨rest, hrest, hitems⟩ := Option.bind_eq_some_iff.mp hitems
          obtain rfl := Option.some.inj hitems
          rw [List.map_cons, h j a ha, ih rest hrest hrest]
  | _ => cases hitems

theorem exact_nullable {write : α → Json} {read : Json → Option α}
    (h : Exact write read) : Exact (optional write) (nullable read) := by
  intro j a ha
  rw [nullable.eq_def] at ha
  split at ha
  · obtain rfl := Option.some.inj ha
    rfl
  · obtain ⟨b, hb, rfl⟩ := Option.map_eq_some_iff.mp ha
    exact h j b hb

/-- The columns that are written as they were read. -/
def exactColumns : List String :=
  ["active", "capabilities", "data", "id", "markers", "name", "requires", "slug",
   "tags", "type", "version"]

/-- What a column of a contract was read from is written in it. -/
theorem ReadFrom.find?_rowFields (h : ReadFrom field c) {key : String} {j : Json}
    (hkey : key ∈ exactColumns) (hfield : field key = some j) :
    Dict.find? c.rowFields key = some j := by
  simp only [exactColumns, List.mem_cons, List.not_mem_nil, or_false] at hkey
  have exact_items := exact_items exact_string
  rcases hkey with rfl | rfl | rfl | rfl | rfl | rfl | rfl | rfl | rfl | rfl | rfl
  · exact congrArg some (exact_bool j _ (by simpa [hfield, defaulted] using h.active))
  · exact congrArg some
      (exact_array j _ (by simpa [hfield, defaulted] using h.capabilities))
  · exact congrArg some (by simpa [hfield] using h.data.symm)
  · exact congrArg some (exact_string j _ (by simpa [hfield, required] using h.id))
  · exact congrArg some
      (exact_items j _ (by simpa [hfield, defaulted] using h.markers))
  · exact congrArg some
      (exact_nullable exact_string j _ (by simpa [hfield, defaulted] using h.name))
  · exact congrArg some
      (exact_array j _ (by simpa [hfield, defaulted] using h.requires))
  · exact congrArg some (exact_string j _ (by simpa [hfield, required] using h.slug))
  · exact congrArg some (exact_items j _ (by simpa [hfield, defaulted] using h.tags))
  · exact congrArg some (exact_string j _ (by simpa [hfield, required] using h.type))
  · exact congrArg some
      (exact_string j _ (by simpa [hfield, required] using h.version))

/-! ## Instants written as they were read -/

theorem valuesOf_object (read : Json → Option α) (fields : Dict Json) :
    valuesOf read (.object fields)
      = fields.mapM fun (k, v) => (read v).map (k, ·) := rfl

/-- Instants as they are written. -/
def instantsJson (instants : Dict Instant) : Json :=
  .object (Dict.mapValues (fun t => .string t.text) instants)

/-- Instants are read from their text as instants with the same text. -/
theorem instantsJson_of_read {instants again : Dict Instant}
    (h : valuesOf readInstant (instantsJson instants) = some again) :
    instantsJson again = instantsJson instants := by
  rw [instantsJson, valuesOf_object] at h
  suffices heq : Dict.mapValues (fun t => Json.string t.text) again
      = Dict.mapValues (fun t => Json.string t.text) instants from
    congrArg Json.object heq
  induction instants generalizing again with
  | nil => obtain rfl := Option.some.inj h; rfl
  | cons p rest ih =>
      obtain ⟨name, t⟩ := p
      rw [Dict.mapValues, List.map_cons, List.mapM_cons] at h
      obtain ⟨⟨name', u⟩, hu, h⟩ := Option.bind_eq_some_iff.mp h
      obtain ⟨others, hothers, h⟩ := Option.bind_eq_some_iff.mp h
      obtain rfl := Option.some.inj h
      obtain ⟨u', hu', heq⟩ := Option.map_eq_some_iff.mp hu
      obtain ⟨rfl, rfl⟩ := Prod.mk.inj heq
      have hrest := ih hothers
      simp only [Dict.mapValues, List.map_cons] at hrest ⊢
      rw [Instant.text_of_parse? hu', hrest]

end Contract

namespace Store

open Contract

variable {now : Instant} {c e full : Contract} {key : String} {rest : List String}
  {v : Json}

/-- The columns of a contract. -/
theorem column_of_part? (h : c.toRow.part? (key :: rest) = some v) :
    key ∈ exactColumns ∨ key ∈ ["created_at", "linked_at", "updated_at"] := by
  rw [toRow, Json.part?_cons] at h
  obtain ⟨j, hj, -⟩ := Option.bind_eq_some_iff.mp h
  have hcolumns : ∀ k ∈ c.rowFields.map (·.1),
      k ∈ exactColumns ∨ k ∈ ["created_at", "linked_at", "updated_at"] := by
    simp [rowFields, exactColumns]
  exact hcolumns key (List.mem_map_of_mem (Dict.mem_of_find? hj))

/-- A written contract has the columns it was given, but for its id and its
    version. -/
theorem find?_replacing (now : Instant) (c full : Contract) (version : String)
    (hcolumn : key ∈ exactColumns) (hid : key ≠ "id") (hversion : key ≠ "version") :
    Dict.find? (replacing now { c with version := version, links := [] }
      full).rowFields key = Dict.find? c.rowFields key := by
  have hcreated : "created_at" ≠ key := fun h => absurd (h ▸ hcolumn) (by decide)
  have hupdated : "updated_at" ≠ key := fun h => absurd (h ▸ hcolumn) (by decide)
  -- the row differs in the times, the id and the version, and nowhere else
  iterate 2 refine Dict.find?_cons_congr (fun _ => rfl) ?_
  refine Dict.find?_cons_congr (fun h => absurd h hcreated) ?_
  refine Dict.find?_cons_congr (fun _ => rfl) ?_
  refine Dict.find?_cons_congr (fun h => absurd h.symm hid) ?_
  iterate 7 refine Dict.find?_cons_congr (fun _ => rfl) ?_
  refine Dict.find?_cons_congr (fun h => absurd h hupdated) ?_
  exact Dict.find?_cons_congr (fun h => absurd h.symm hversion) rfl

/-- A contract in the form in which it is kept has its columns, but for its
    version. -/
theorem find?_canonical (c : Contract) (version : String) (hversion : key ≠ "version") :
    Dict.find? ({ c with version := version, links := [] } : Contract).rowFields key
      = Dict.find? c.rowFields key := by
  iterate 13 refine Dict.find?_cons_congr (fun _ => rfl) ?_
  exact Dict.find?_cons_congr (fun h => absurd h.symm hversion) rfl

/-- A contract with other stamps has its columns, but for the stamps. -/
theorem find?_stamped (c : Contract) (linkedAt : Dict Instant) (hlinked : key ≠ "linked_at") :
    Dict.find? ({ c with linkedAt := linkedAt } : Contract).rowFields key
      = Dict.find? c.rowFields key := by
  iterate 5 refine Dict.find?_cons_congr (fun _ => rfl) ?_
  exact Dict.find?_cons_congr (fun h => absurd h.symm hlinked) rfl

/-- What a document still says of a contract is in what is written in the
    place of the contract. -/
theorem part?_replacing (hfull : full.Kept)
    {fields : Dict Json} (hread : ofFields (Dict.find? fields) = some c)
    (hlinked : Dict.find? fields "linked_at" = some (instantsJson full.linkedAt))
    (hcanonical : canonical c = .ok e) (hkey : key ≠ "updated_at")
    (hpart : full.toRow.part? (key :: rest) = some v)
    (hsame : (Json.object fields).part? (key :: rest) = some v) :
    (replacing now e full).toRow.part? (key :: rest) = some v := by
  have hreads := readFrom_of_ofFields hread
  obtain ⟨-, -, w, hw, rfl⟩ := canonical_ok hcanonical
  suffices hfind : Dict.find? (replacing now { c with version := w.text, links := [] }
        full).rowFields key = Dict.find? full.rowFields key
      ∨ Dict.find? (replacing now { c with version := w.text, links := [] }
        full).rowFields key = Dict.find? fields key by
    rw [toRow, Json.part?_cons] at hpart ⊢
    rcases hfind with hfind | hfind
    · rw [hfind, hpart]
    · rw [hfind, ← Json.part?_cons, hsame]
  rcases column_of_part? hpart with hcolumn | hcolumn
  · rw [toRow, Json.part?_cons] at hpart
    rw [Json.part?_cons] at hsame
    obtain ⟨j, hj, hrest⟩ := Option.bind_eq_some_iff.mp hsame
    have hc := hreads.find?_rowFields hcolumn hj
    by_cases hid : key = "id"
    · subst hid
      exact .inl rfl
    by_cases hversion : key = "version"
    · subst hversion
      left
      obtain ⟨x, hx, htext⟩ := hfull.version
      have hstring : (Json.string full.version).part? rest = some v := hpart
      cases rest with
      | cons => cases hstring
      | nil =>
          obtain rfl := Option.some.inj hstring
          obtain rfl : Json.string full.version = j := by
            rw [Json.part?_nil] at hrest
            exact (Option.some.inj hrest).symm
          have hversion : c.version = full.version :=
            Json.string.inj (Option.some.inj hc)
          have htext' : w.text = full.version := by
            rw [hversion, htext, Version.parse?_text hx] at hw
            rw [← Option.some.inj hw, htext]
          exact congrArg (fun s => some (Json.string s)) htext'
    · exact .inr (by rw [find?_replacing now c full _ hcolumn hid hversion, hc, hj])
  · simp only [List.mem_cons, List.not_mem_nil, or_false] at hcolumn
    rcases hcolumn with rfl | rfl | rfl
    · exact .inl rfl
    · left
      have hlinkedAt := hreads.linkedAt
      rw [hlinked] at hlinkedAt
      exact congrArg some (instantsJson_of_read hlinkedAt)
    · exact absurd rfl hkey

/-- What is written under the id of a stored contract is written in its
    place. -/
theorem Sound.replacing_of_write {s t : Store} {mode : WriteMode}
    {written : Contract} (h : s.Sound)
    (hw : s.write now mode c = .ok (written, t)) (hfull : full ∈ s.contracts)
    (hid : written.id = full.id) :
    ∃ e, canonical c = .ok e ∧ written = replacing now e full := by
  obtain ⟨e, he, ⟨found, hfound, -, rfl, -⟩ | ⟨hnone, rfl, -⟩⟩ := write_ok hw
  · obtain rfl := h.eq_of_id (h.existing? hfound) hfull hid
    exact ⟨e, he, rfl⟩
  · have hfound := h.contract?_eq_some.mpr ⟨hfull, rfl⟩
    rw [Store.existing?, hid, hfound] at hnone
    split at hnone <;> cases hnone

end Store

end LinkedContracts
