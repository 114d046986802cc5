import LinkedContracts.Kernel.Boot
import LinkedContracts.Proofs.Contract
import LinkedContracts.Proofs.Dict

/-! # Built-in contracts

    A built-in definition gives a slug, a type, data and perhaps a name, and
    leaves the rest open.  Completed with an id and a time, it is a contract
    in its first version that is read back as it is. -/

namespace LinkedContracts

/-- What is found after a value was put at a key. -/
theorem Dict.find?_insert {α : Type} (d : Dict α) (key : String) (value : α)
    (other : String) : Dict.find? (Dict.insert d key value) other
      = if other = key then some value else Dict.find? d other := by
  split
  · next heq => rw [heq, Dict.find?_insert_self]
  · next hne => exact Dict.find?_insert_of_ne d value (Ne.symm hne)

namespace Builtin

/-- The slug a definition gives. -/
def slugOf (definition : Json) : String := (definition.stringField? "slug").getD ""

/-- The type a definition gives. -/
def typeOf (definition : Json) : String := (definition.stringField? "type").getD ""

/-- The contract of a definition, with an id and times. -/
def contract (definition : Json) (id : String) (createdAt : Instant)
    (updatedAt : Option Instant) : Contract where
  id
  slug := slugOf definition
  type := typeOf definition
  version := "1.0.0"
  name := definition.stringField? "name"
  active := true
  tags := []
  markers := []
  requires := []
  capabilities := []
  links := []
  linkedAt := []
  createdAt
  updatedAt
  data := (definition.field? "data").getD (.object [])

/-- A definition that gives a slug, a type, data and perhaps a name. -/
structure Plain (definition : Json) : Prop where
  keys : ∃ fields, definition = .object fields
    ∧ ∀ key ∈ Dict.keys fields, key ∈ ["data", "name", "slug", "type"]
  slug : ∃ slug, definition.field? "slug" = some (.string slug) ∧ slug.isEmpty = false
  type : ∃ type, definition.field? "type" = some (.string type) ∧ '@' ∈ type.toList
    ∧ Link.isLinkType type = false
  name : ∀ name, definition.field? "name" = some name → ∃ text, name = .string text
  data : ∃ data, definition.field? "data" = some data
    ∧ Json.retold (Json.maxDepth - 1) data = some data

/-- A type in a version has a name. -/
theorem isEmpty_of_at {s : String} (h : '@' ∈ s.toList) : s.isEmpty = false := by
  cases hs : s.isEmpty with
  | false => rfl
  | true =>
      rw [String.isEmpty_iff.mp hs] at h
      cases h

variable {definition : Json} {id : String} {now createdAt : Instant}

/-- A plain definition is completed with whatever it leaves open. -/
theorem Plain.ofPartial [TextLibrary] (h : Plain definition) (hid : id.isEmpty = false)
    (hnow : Instant.parse? now.orderText = some createdAt) :
    Contract.ofPartial id now definition = .ok (contract definition id createdAt none) := by
  obtain ⟨⟨fields, rfl, hkeys⟩, ⟨slug, hslug, hnamed⟩, ⟨type, htype, hat, -⟩, hname,
    ⟨data, hdata, -⟩⟩ := h
  simp only [Json.field?] at hslug htype hname hdata
  have hopen {key : String} (hkey : key ∉ ["data", "name", "slug", "type"]) :
      Dict.find? fields key = none :=
    Dict.find?_eq_none.mpr fun hmem => hkey (hkeys key hmem)
  -- the fields, after what they leave open was filled in
  let filled := Dict.insert (Dict.insert (Dict.insert (Dict.insert fields "slug"
    (.string slug)) "id" (.string id)) "version" (.string Version.initial.text))
    "created_at" (.string now.orderText)
  have hfind (key : String) : Dict.find? filled key =
      if key = "created_at" then some (.string now.orderText)
      else if key = "version" then some (.string "1.0.0")
      else if key = "id" then some (.string id)
      else Dict.find? fields key := by
    have hversion : Version.initial.text = "1.0.0" := by decide
    simp only [filled, Dict.find?_insert, hversion]
    by_cases hkey : key = "slug"
    · subst hkey
      simp [hslug]
    · rw [if_neg hkey]
  have hread : Contract.ReadFrom (Dict.find? filled)
      (contract (.object fields) id createdAt none) := by
    have htext : Contract.defaulted none (Contract.nullable Json.asString?)
        (Dict.find? fields "name") = some ((Dict.find? fields "name").bind Json.asString?) := by
      cases hfield : Dict.find? fields "name" with
      | none => rfl
      | some name =>
          obtain ⟨text, rfl⟩ := hname name hfield
          rfl
    constructor
    case name => simpa [hfind, contract, Json.stringField?, Json.field?] using htext
    all_goals
      simp [hfind, hopen, hslug, htype, hdata, hnow, contract, slugOf, typeOf, Contract.required,
        Contract.defaulted, Contract.readInstant, Json.stringField?, Json.field?,
        Json.asString?]
  have hidentity : (contract (.object fields) id createdAt none).checkIdentity = .ok () := by
    have hversion : Version.parse? "1.0.0" = some Version.initial := by decide
    simp [Contract.checkIdentity, contract, slugOf, typeOf, hid, hslug, hnamed, Json.stringField?,
      Json.field?, Json.asString?, Contract.parsedVersion, Version.parse, hversion, bind,
      Except.bind, pure, Except.pure]
  have hslugOf : Contract.slugOf fields = .ok slug := by
    simp [Contract.slugOf, hslug, Json.asString?, hnamed]
  have hfilled : Contract.fill (Contract.fill (Contract.fill (Dict.insert fields "slug"
      (.string slug)) "id" (.string id)) "version" (.string Version.initial.text))
      "created_at" (.string now.orderText) = filled := by
    simp [Contract.fill, filled, Dict.find?_insert, hopen]
  simp only [Contract.ofPartial, htype, Option.bind_some, Json.asString?, isEmpty_of_at hat,
    hslugOf, hfilled, hread.ofFields_eq, hidentity, bind, Except.bind]
  rfl

/-- The contract of a definition is read back as it is, if its times are. -/
theorem Plain.reread (h : Plain definition) {updatedAt : Option Instant}
    (hcreated : Instant.parse? createdAt.text = some createdAt)
    (hupdated : ∀ t, updatedAt = some t → Instant.parse? t.text = some t) :
    (contract definition id createdAt updatedAt).reread
      = some (contract definition id createdAt updatedAt) := by
  obtain ⟨data, hdata, hretold⟩ := h.data
  refine Contract.reread_eq rfl rfl ?_ hcreated rfl rfl hupdated
  show Json.retold _ ((definition.field? "data").getD (.object [])) = some _
  simp [contract, hdata, hretold]

/-! ## The definitions -/

theorem plain_named {slug type name : String} {data : Json} (hslug : slug.isEmpty = false)
    (htype : '@' ∈ type.toList ∧ Link.isLinkType type = false)
    (hdata : Json.retold (Json.maxDepth - 1) data = some data) :
    Plain (Builtin.definition slug type [("name", .string name), ("data", data)]) where
  keys := ⟨_, rfl, fun key h => by simpa [or_comm, or_left_comm] using Dict.mem_keys_ofList.mp h⟩
  slug := ⟨slug, rfl, hslug⟩
  type := ⟨type, rfl, htype⟩
  name text h := ⟨name, (Option.some.inj h).symm⟩
  data := ⟨data, rfl, hdata⟩

theorem plain_unnamed {slug type : String} {data : Json} (hslug : slug.isEmpty = false)
    (htype : '@' ∈ type.toList ∧ Link.isLinkType type = false)
    (hdata : Json.retold (Json.maxDepth - 1) data = some data) :
    Plain (Builtin.definition slug type [("data", data)]) where
  keys := ⟨_, rfl, fun key h => by
    have h := Dict.mem_keys_ofList.mp h
    simp at h ⊢
    grind⟩
  slug := ⟨slug, rfl, hslug⟩
  type := ⟨type, rfl, htype⟩
  name text h := nomatch h
  data := ⟨data, rfl, hdata⟩

/-- All definitions, in the order in which they are written, with a session of
    an actor. -/
def all (actor : String) : List Json :=
  coreTypes ++ [adminRole] ++ [admin] ++ ([adminSession actor] ++ extraTypes)

theorem plain_type : ∀ definition ∈ coreTypes ++ extraTypes, Plain definition := by
  simp only [coreTypes, extraTypes, List.cons_append, List.nil_append, List.forall_mem_cons,
    List.not_mem_nil, false_imp_iff, implies_true, and_true]
  refine ⟨?_, ?_, ?_, ?_, ?_, ?_, ?_, ?_⟩ <;>
    exact plain_named (by decide) (by decide) (by cbv)

theorem plain_adminRole : Plain adminRole :=
  plain_named (by decide) (by decide) (by cbv)

theorem plain_admin : Plain admin := plain_named (by decide) (by decide) (by cbv)

theorem plain_adminSession (actor : String) : Plain (adminSession actor) :=
  plain_unnamed (by decide) (by decide) rfl

end Builtin

end LinkedContracts
