import LinkedContracts.Proofs.Query.Listed

/-! # The contracts a result does not lose

    A row that a chain of variants leads to is shown below the rows on the way
    if each of these was reached along the first variant that leads to it.  A
    variant that comes after another one that leads to the same row shows
    nothing below the row: the row is listed once, with what is linked along
    the first variant. -/

namespace LinkedContracts

open Join

/-- Returned rows of one id are the same row.  The id is that of a match: empty
    where the row has none. -/
def SameRows (links : Json → String → List Json) : Prop :=
  ∀ a b, Returned links a → Returned links b → (b.stringField? "id").isSome →
    Filter.rowId a = Filter.rowId b → a = b

/-- Rows that are known from their ids are the same for one id. -/
theorem sameRows_of_rowId {links : Json → String → List Json} {row : String → Json}
    (h : ∀ r, Returned links r → r = row (Filter.rowId r)) : SameRows links := by
  intro a b ha hb _ hid
  rw [h a ha, h b hb, hid]

namespace Site

variable {links : Json → String → List Json} {s : Site} {j j' : Join} {r : Json}

/-- One variant only is the first to lead to a row. -/
theorem LeadsFirst.unique (h : s.LeadsFirst links j r) (h' : s.LeadsFirst links j' r)
    (htype : j.linkType = j'.linkType) : j = j' := by
  obtain ⟨i, hi, hfirst⟩ := h.first
  obtain ⟨k, hk, hfirst'⟩ := h'.first
  rw [← htype] at hk hfirst'
  rcases Nat.lt_trichotomy i k with hlt | rfl | hlt
  · exact absurd rfl (hfirst' i hlt j hi r h.leads)
  · exact Option.some.inj (hi.symm.trans hk)
  · exact absurd rfl (hfirst k hlt j' hk r h'.leads)

end Site

namespace Query

/-- A document shows the rows of a chain, each listed below the one before under
    the link type of its variant. -/
inductive Displays : Selection → Json → List (Join × Json) → Prop where
  | nil {select : Selection} {d : Json} : Displays select d []
  | cons {select sub : Selection} {d d' r : Json} {j : Join} {rest : List (Join × Json)}
      (hsub : Dict.find? select.links j.linkType = some sub)
      (hd : d' ∈ listed d j.linkType) (hshown : ShownAs sub r d')
      (hrest : Displays sub d' rest) : Displays select d ((j, r) :: rest)

section

variable [TextLibrary]
variable {tables : Tables} {schema : Schema} {options : QueryOptions} {q : Query}
  {links : Json → String → List Json} {found : List LinkMatch} {c : Json}
  {select selected : Selection} {s t : Site} {result r : Json} {j : Join}
  {chain : List (Join × Json)}

end

/-! ## Two variants of one link type -/

namespace Owned

/-- A row of which only the id is known. -/
def row (id : String) : Json := .object [("id", .string id)]

/-- A card is owned by a user, who is member of an organisation. -/
def links : Json → String → List Json :=
  linksById fun id linkType => match id, linkType with
    | "card", "is owned by" => [row "user"]
    | "user", "is member of" => [row "org"]
    | _, _ => []

theorem sameRows_links : SameRows links := by
  refine @sameRows_of_rowId links row ?_
  rintro r ⟨parent, linkType, h⟩
  rw [links, linksById] at h
  split at h
  · split at h
    · rw [List.mem_singleton.mp h]
      rfl
    · rw [List.mem_singleton.mp h]
      rfl
    · cases h
  · cases h

/-- Two variants: what is asked of the owner by the one and by the other. -/
def schema (first second : Schema) : Schema :=
  .conj [.node { links := some [("is owned by", first)] },
    .node { links := some [("is owned by", second)] }]

/-- What is asked of a user who is member of something. -/
def member : Schema := .node { links := some [("is member of", .bool true)] }

/-- The variant of an owner of whom nothing is asked. -/
def owner (name : String) : Join := ⟨"is owned by", "cards", name, .always, false, []⟩

/-- The variant of what a member is member of. -/
def organisation (owner name : String) : Join :=
  ⟨"is member of", owner, name, .always, false, []⟩

/-- The variant of an owner who is member of something. -/
def memberOwner (name below : String) : Join :=
  ⟨"is owned by", "cards", name, .linked name "is member of" below .always, true,
    [("is member of", [organisation name below])]⟩

/-- The query of two variants. -/
def query (schema : Schema) (first second : Join) : Query where
  tables := {}
  select := .ofSchema schema
  filter := .conj [.linked "cards" "is owned by" first.name first.filter,
    .linked "cards" "is owned by" second.name second.filter]
  joins := [("is owned by", [first, second])]
  options := {}

/-- The variant that asks more comes second. -/
def deepSecond : Query :=
  query (schema (.bool true) member) (owner "join@/is owned by.0")
    (memberOwner "join@/is owned by.1" "join@/is owned by.1/is member of.0")

theorem compile_deepSecond : compile {} (.ofSchema (schema (.bool true) member))
    (schema (.bool true) member) {} = .ok deepSecond :=
  rfl

/-- The result of a card of whose owner nothing more is shown than `ls`. -/
def result (ls : List Json) : Json :=
  withLinks (row "card")
    [("is owned by", .array [withLinks (row "user") [("is member of", .array ls)]])]

theorem evaluate_deepSecond :
    deepSecond.evaluate (row "card") (.known links) = .ok (some (result [])) :=
  (evaluate_known _ _).trans (congrArg Except.ok (by decide +kernel))

end Owned

open Owned in
/-- Where the variant that asks more comes second, what the owner is member of is
    lost: the owner is listed for the first variant, which asks nothing more. -/
theorem loses_organisation :
    ∃ q result chain t,
      compile {} (.ofSchema (schema (.bool true) member)) (schema (.bool true) member) {}
        = .ok q
      ∧ SameRows links ∧ q.evaluate (row "card") (.known links) = .ok (some result)
      ∧ Chain (Site.Leads links) (q.site (row "card")) chain t
      ∧ q.select.Has ((typesOf chain).map .link) ∧ ¬Displays q.select result chain := by
  have howner : (deepSecond.site (row "card")).Leads links
      (memberOwner "join@/is owned by.1" "join@/is owned by.1/is member of.0") (row "user") :=
    ⟨.tail _ List.mem_cons_self, .tail _ List.mem_cons_self, List.mem_cons_self, rfl,
      by decide +kernel, rfl⟩
  have horganisation : (Site.below
      (memberOwner "join@/is owned by.1" "join@/is owned by.1/is member of.0")
      (row "user")).Leads links
        (organisation "join@/is owned by.1" "join@/is owned by.1/is member of.0") (row "org") :=
    ⟨List.mem_cons_self, List.mem_cons_self, List.mem_cons_self, rfl, rfl, rfl⟩
  refine ⟨deepSecond, result [], _, _, compile_deepSecond, sameRows_links,
    evaluate_deepSecond, .cons howner (.cons horganisation .nil), ⟨_, rfl, _, rfl, trivial⟩, ?_⟩
  rintro (_ | ⟨-, hd, -, _ | ⟨-, hd', -, -⟩⟩)
  have howners : listed (result []) "is owned by"
      = [withLinks (row "user") [("is member of", .array [])]] := by decide +kernel
  have hnone : listed (withLinks (row "user") [("is member of", .array [])]) "is member of"
      = [] := by decide +kernel
  obtain rfl := List.mem_singleton.mp (howners ▸ hd)
  exact List.not_mem_nil (hnone ▸ hd')

end Query

end LinkedContracts
