import LinkedContracts.Proofs.Json.Parts
import LinkedContracts.Proofs.Query.Entries
import LinkedContracts.Proofs.Query.Images
import LinkedContracts.Proofs.Selection.Paths

/-! # The contracts a result lists

    A result is the document of the site of its contract.  The documents that
    the document of a site lists under a link type are those of the sites that
    the variants of the type lead to, one for each id.  By induction on how a
    document is reached, each is the document of a site at the end of a chain
    of variants and rows.

    A contract may show linked contracts of its own, as an image does, and so
    may a row.  A selection without links that takes the field `links` leaves
    them in the document, and what is listed below was not looked up. -/

namespace LinkedContracts

open Join

/-- The documents that a document lists under a link type. -/
def listed (d : Json) (linkType : String) : List Json :=
  (((d.field? "links").bind (·.field? linkType)).bind Json.asArray?).getD []

/-- Along link types a document lists one that lists one, and so on. -/
inductive Nests : Json → List String → Json → Prop where
  | here {d : Json} : Nests d [] d
  | further {d d' e : Json} {linkType : String} {rest : List String}
      (hd : d' ∈ listed d linkType) (h : Nests d' rest e) : Nests d (linkType :: rest) e

namespace Site

/-- A join is the first of its link type that leads from a site to a row of an
    id. -/
structure LeadsFirst (links : Json → String → List Json) (s : Site) (j : Join)
    (r : Json) : Prop where
  leads : s.Leads links j r
  first : ∃ i : Nat, (s.variants j.linkType)[i]? = some j
    ∧ ∀ k < i, ∀ j', (s.variants j.linkType)[k]? = some j' →
      ∀ r', s.Leads links j' r' → Filter.rowId r' ≠ Filter.rowId r

/-- How a site is shown, from the columns of a row. -/
def document (columns : Json) (select : Selection) (s : Site) : Json :=
  if select.links.isEmpty then select.project s.row
  else Query.withLinks (select.project s.row)
    (Query.attach select s.joins columns (Filter.rowId s.row))

end Site

/-- Joins and rows that lead from one site to another, step by step. -/
inductive Chain (leads : Site → Join → Json → Prop) :
    Site → List (Join × Json) → Site → Prop where
  | nil {s : Site} : Chain leads s [] s
  | cons {s t : Site} {j : Join} {r : Json} {rest : List (Join × Json)}
      (h : leads s j r) (hrest : Chain leads (.below j r) rest t) :
      Chain leads s ((j, r) :: rest) t

theorem Chain.imp {P Q : Site → Join → Json → Prop} {s t : Site}
    {chain : List (Join × Json)} (himp : ∀ s j r, P s j r → Q s j r)
    (h : Chain P s chain t) : Chain Q s chain t := by
  induction h with
  | nil => exact .nil
  | cons h _ ih => exact .cons (himp _ _ _ h) ih

/-- The link types of a chain. -/
def typesOf (chain : List (Join × Json)) : List String :=
  chain.map fun x => x.1.linkType

namespace Query

/-! ## Where documents are listed -/

/-- What a selection shows of a row: what is selected, and linked contracts
    under the link types that are selected, if any are. -/
def ShownAs (select : Selection) (r d : Json) : Prop :=
  if select.links.isEmpty then d = select.project r
  else ∃ ls, Dict.keys ls = Dict.keys select.links
    ∧ d = withLinks (select.project r) ls

variable {tables : Tables} {select sub : Selection} {schema : Schema}
  {options : QueryOptions} {q : Query} {c : Json} {found : List LinkMatch}
  {linkType : String}

/-- The joins below a join with what is selected there. -/
theorem joinSelections_eq (j : Join) (select : Selection) :
    joinSelections j select = (j, select) :: treeSelections j.nested select := by
  cases j
  rfl

theorem joinSelections_subset {tree : Dict (List Join)} {j : Join}
    (hj : j ∈ (Dict.find? tree linkType).getD []) (select : Selection) :
    joinSelections j (linkSelection select linkType) ⊆ treeSelections tree select := by
  have list (js : List Join) (hj : j ∈ js) (select : Selection) :
      joinSelections j select ⊆ listSelections js select := by
    induction js with
    | nil => cases hj
    | cons k rest ih =>
        rcases List.mem_cons.mp hj with rfl | hj
        · exact List.subset_append_left _ _
        · exact List.Subset.trans (ih hj) (List.subset_append_right _ _)
  induction tree with
  | nil => cases hj
  | cons p rest ih =>
      obtain ⟨name, ks⟩ := p
      rw [Dict.find?_cons] at hj
      split at hj
      · next hname =>
          subst hname
          exact List.Subset.trans (list ks hj _) (List.subset_append_left _ _)
      · exact List.Subset.trans (ih hj) (List.subset_append_right _ _)

end Query

/-! ## Sites that are shown -/

namespace Site

open Query

/-- A site whose document is part of a result: it was evaluated, and its joins
    have columns for what is selected there. -/
structure Shown (q : Query) (links : Json → String → List Json)
    (found : List LinkMatch) (select : Selection) (s : Site) : Prop where
  traced : ∃ around way, s.Traced links found q.tables.contracts around way
  id : (s.row.stringField? "id").isSome
  columns : treeSelections s.joins select ⊆ q.selectedJoins

variable {tables : Tables} {schema : Schema} {options : QueryOptions} {q : Query}
  {links : Json → String → List Json} {found : List LinkMatch} {c : Json}
  {select selected sub last : Selection} {s : Site} {j : Join} {r d e : Json}
  {linkType : String}

theorem Shown.below (h : s.Shown q links found select) (hleads : s.Leads links j r)
    (hsub : Dict.find? select.links j.linkType = some sub) :
    (Site.below j r).Shown q links found sub := by
  obtain ⟨around, way, htraced⟩ := h.traced
  obtain ⟨i, hi⟩ := List.mem_iff_getElem?.mp hleads.variant
  refine ⟨⟨_, _, htraced.below hi hleads⟩, hleads.id, ?_⟩
  have hbelow := joinSelections_subset hleads.variant select
  rw [linkSelection, hsub, Option.getD_some, joinSelections_eq] at hbelow
  exact fun x hx => h.columns (hbelow (List.mem_cons_of_mem _ hx))

variable [TextLibrary]

end Site

namespace Query

variable {tables : Tables} {schema : Schema} {options : QueryOptions} {q : Query}
  {links : Json → String → List Json} {found : List LinkMatch} {c : Json}
  {select selected last : Selection} {s : Site} {d e result : Json} {types : List String}

/-- An image of a card shows the organisation that owns it.  A query that asks for
    no links lists it, although nothing is linked to the card. -/
theorem lists_unlinked_organisation :
    let links : Json → String → List Json := fun _ _ => []
    let organisation : Json := .object [("id", .string "org")]
    let card : Json := .object
      [("id", .string "card"),
        ("links", .object [("is owned by", .array [organisation])])]
    ∃ q, compile {} (.ofSchema (.node {})) (.node {}) {} = .ok q
      ∧ SteadyLinks links ∧ (card.stringField? "id").isSome
      ∧ q.evaluate card (.known links) = .ok (some card)
      ∧ Nests card ["is owned by"] organisation
      ∧ ¬∃ chain t, Chain (Site.Leads links) (q.site card) chain t
        ∧ typesOf chain = ["is owned by"] := by
  intro links organisation card
  have hlisted : organisation ∈ listed card "is owned by" := by decide +kernel
  refine ⟨_, rfl, fun _ _ _ _ _ _ _ => List.nil_subset _, rfl, rfl,
    .further hlisted .here, ?_⟩
  rintro ⟨_, t, _ | ⟨hleads, -⟩, htypes⟩
  · cases htypes
  · cases hleads.linked

end Query

end LinkedContracts
