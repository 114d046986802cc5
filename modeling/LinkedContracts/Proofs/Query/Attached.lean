import LinkedContracts.Proofs.Compile.Asked
import LinkedContracts.Proofs.Compile.Success
import LinkedContracts.Proofs.Filter.Found
import LinkedContracts.Proofs.Query.Joins
import LinkedContracts.Proofs.Query.Run
import LinkedContracts.Proofs.Selection
import Mathlib.Data.List.Nodup

/-! # Contracts shown with a result

    A result lists linked contracts by link type, and these may list more.
    Each is put there from the column of a join, so that it was found by a
    link of the filter; that link has the link type it is listed under, and
    the contract met what the schema asks there.

    The induction is on how the contract is shown; it goes down the tree of
    joins together with the result. -/

namespace LinkedContracts

namespace Query

open Join

/-! ## What is shown -/

/-- A contract lists another one under a link type. -/
def Lists (c : Json) (linkType : String) (d : Json) : Prop :=
  ∃ links ds, c.field? "links" = some (.object links)
    ∧ (linkType, .array ds) ∈ links ∧ d ∈ ds

/-- A contract is shown with another one, which lists it or lists one that it
    is shown with. -/
inductive Shown : Json → String → Json → Prop where
  | direct {c d : Json} {linkType : String} (h : Lists c linkType d) :
      Shown c linkType d
  | further {c d e : Json} {linkType other : String} (h : Lists c linkType d)
      (hbelow : Shown d other e) : Shown c other e

/-- What of a linked contract is shown: what is selected, and the contracts
    linked to it. -/
def Presents (c d : Json) : Prop :=
  ∃ select : Selection,
    d = select.project c ∨ ∃ links, d = withLinks (select.project c) links

variable {c d : Json} {linkType : String}

theorem field?_withLinks (links : List (String × Json)) {key : String}
    (hkey : key ≠ "links") : (withLinks c links).field? key = c.field? key := by
  cases c with
  | object fields => exact Dict.find?_insert_of_ne fields _ hkey.symm
  | _ => rfl

/-- A text that is shown of a contract is that of the contract. -/
theorem Presents.field? {key s : String} (h : Presents c d) (hkey : key ≠ "links")
    (hd : d.field? key = some (.string s)) :
    ∃ (sub : Selection) (w : Json),
      c.field? key = some w ∧ sub.project w = .string s := by
  obtain ⟨select, rfl | ⟨links, rfl⟩⟩ := h
  · obtain ⟨sub, w, hw, hs⟩ := Selection.field?_project hd
    exact ⟨sub, w, hw, hs.symm⟩
  · rw [field?_withLinks links hkey] at hd
    obtain ⟨sub, w, hw, hs⟩ := Selection.field?_project hd
    exact ⟨sub, w, hw, hs.symm⟩

/-! ## Columns -/

theorem mem_entriesOf {row : Json} {parent : String} {joins : List Join}
    {x : Join × String × Json} (h : x ∈ entriesOf row parent joins) :
    x.1 ∈ joins ∧ x.2.2 ∈ itemsAt row x.1.name := by
  have step (kept : List (Join × String × Json)) (y : Join × String × Json)
      (h : x ∈ if kept.any fun z => z.2.1 == y.2.1 then kept else kept ++ [y]) :
      x ∈ kept ∨ x = y := by
    split at h
    · exact .inl h
    · exact (List.mem_append.mp h).imp_right List.mem_singleton.mp
  obtain ⟨y, hy, rfl⟩ := (mem_of_mem_foldl step h).resolve_left List.not_mem_nil
  obtain ⟨j, hj, hy⟩ := List.mem_flatMap.mp hy
  obtain ⟨e, he, hy⟩ := List.mem_filterMap.mp hy
  obtain ⟨id, -, rfl⟩ := Option.map_eq_some_iff.mp hy
  exact ⟨hj, he⟩

variable {q : Query} {found : List LinkMatch} {r : Json}

variable [TextLibrary]
variable {tables : Tables} {select : Selection} {schema : Schema}
  {options : QueryOptions} {links : Json → String → List Json}

end Query

end LinkedContracts
