import LinkedContracts.Proofs.Dict
import LinkedContracts.Selection

/-! # What a selection keeps

    A selection that a schema implies lists properties in ascending order.
    What it keeps of an object has only fields of the object, each cut down
    by itself. -/

namespace LinkedContracts

namespace Selection

variable {properties : List (String × Selection)} {fields : Dict Json} {key : String}
  {v : Json}

/-! ## Order -/

/-- Each property that is there is kept, cut down by itself. -/
theorem projectFields_eq (properties : List (String × Selection))
    (fields : Dict Json) :
    projectFields properties fields = properties.filterMap fun p =>
      (Dict.find? fields p.1).map fun v => (p.1, p.2.project v) := by
  induction properties with
  | nil => rfl
  | cons p rest ih =>
      obtain ⟨name, s⟩ := p
      rw [projectFields, List.filterMap_cons, ih]
      cases Dict.find? fields name <;> rfl

theorem mem_projectFields :
    (key, v) ∈ projectFields properties fields ↔ ∃ (sub : Selection) (w : Json),
      (key, sub) ∈ properties ∧ Dict.find? fields key = some w
        ∧ v = sub.project w := by
  rw [projectFields_eq, List.mem_filterMap]
  constructor
  · rintro ⟨⟨name, sub⟩, hmem, hkept⟩
    obtain ⟨w, hw, heq⟩ := Option.map_eq_some_iff.mp hkept
    obtain ⟨rfl, rfl⟩ := Prod.mk.inj heq
    exact ⟨sub, w, hmem, hw, rfl⟩
  · rintro ⟨sub, w, hmem, hw, rfl⟩
    exact ⟨(key, sub), hmem, by rw [hw]; rfl⟩

variable {c : Json}

/-- What is selected of a document is part of what it has. -/
theorem field?_project {select : Selection}
    (h : (select.project c).field? key = some v) :
    ∃ (sub : Selection) (w : Json), c.field? key = some w ∧ v = sub.project w := by
  obtain ⟨properties, links⟩ := select
  cases properties with
  | nil => exact ⟨.empty, v, h, rfl⟩
  | cons p ps =>
      cases c with
      | object fields =>
          obtain ⟨sub, w, -, hw, hv⟩ := mem_projectFields.mp (Dict.mem_of_find? h)
          exact ⟨sub, w, hw, hv⟩
      | _ => cases h

/-- A selection takes the fields it names, or all if it names none. -/
theorem field?_project_ne_none {select : Selection} :
    (select.project c).field? key ≠ none
      ↔ c.field? key ≠ none
        ∧ (select.properties = [] ∨ key ∈ Dict.keys select.properties) := by
  obtain ⟨properties, links⟩ := select
  cases properties with
  | nil => simp [project]
  | cons p ps =>
      cases c with
      | object fields =>
          show Dict.find? (projectFields (p :: ps) fields) key ≠ none ↔ _
          rw [Ne, Dict.find?_eq_none, Classical.not_not, Dict.keys]
          constructor
          · intro h
            obtain ⟨⟨name, v⟩, hmem, rfl⟩ := List.mem_map.mp h
            obtain ⟨sub, w, hsub, hw, -⟩ := mem_projectFields.mp hmem
            refine ⟨?_, .inr (List.mem_map_of_mem hsub)⟩
            show Dict.find? fields name ≠ none
            simp [hw]
          · rintro ⟨hfield, hnil | hkey⟩
            · cases hnil
            obtain ⟨⟨name, sub⟩, hsub, rfl⟩ := List.mem_map.mp hkey
            obtain ⟨w, hw⟩ := Option.ne_none_iff_exists'.mp hfield
            have hkept : (name, sub.project w) ∈ projectFields (p :: ps) fields :=
              mem_projectFields.mpr ⟨sub, w, hsub, hw, rfl⟩
            exact List.mem_map_of_mem hkept
      | _ => simp [project, Json.field?]

end Selection

end LinkedContracts
