import LinkedContracts.Instant
import LinkedContracts.Reference
import LinkedContracts.TextLibrary

/-! # Contracts

    A contract is a versioned, typed document with an identity: an id, a
    slug, a version and a type.  Its links are not part of what is stored;
    they are filled in where a contract is shown with the contracts it is
    linked to.

    `toJson` and `ofJson?` write and read a full contract; `ofPartial`
    completes a partial definition. -/

namespace LinkedContracts

variable [TextLibrary]

/-- A versioned, typed document. -/
structure Contract where
  id : String
  slug : String
  type : String
  version : String
  name : Option String
  active : Bool
  tags : List String
  markers : List String
  requires : List Json
  capabilities : List Json
  /-- Contracts shown with this one, by link name. -/
  links : Dict (List Json)
  /-- When the contract was last linked under a name. -/
  linkedAt : Dict Instant
  createdAt : Instant
  updatedAt : Option Instant
  data : Json

namespace Contract

/-- `slug@version`. -/
def versionedSlug (c : Contract) : String := c.slug ++ "@" ++ c.version

/-- The schema a type contract holds. -/
def typeSchema? (c : Contract) : Option Json :=
  match c.data.field? "schema" with
  | some .null => none
  | other => other

/-! ## Writing -/

/-- A field that may be missing, as a document. -/
def optional (f : α → Json) : Option α → Json
  | some a => f a
  | none => .null

/-- The stored fields of a contract, keys in ascending order. -/
def rowFields (c : Contract) : Dict Json :=
  [("active", .bool c.active),
   ("capabilities", .array c.capabilities),
   ("created_at", .string c.createdAt.text),
   ("data", c.data),
   ("id", .string c.id),
   ("linked_at", .object (Dict.mapValues (fun t => .string t.text) c.linkedAt)),
   ("markers", .ofStrings c.markers),
   ("name", optional .string c.name),
   ("requires", .array c.requires),
   ("slug", .string c.slug),
   ("tags", .ofStrings c.tags),
   ("type", .string c.type),
   ("updated_at", optional (fun t => .string t.text) c.updatedAt),
   ("version", .string c.version)]

/-- The contract as a stored row, without links. -/
def toRow (c : Contract) : Json := .object c.rowFields

/-- The links of a contract as a document. -/
def linksJson (links : Dict (List Json)) : Json :=
  .object (Dict.mapValues Json.array links)

/-- The contract as a document. -/
def toJson (c : Contract) : Json :=
  .object (Dict.insert c.rowFields "links" (linksJson c.links))

/-! ## Reading -/

/-- Read every item of an array. -/
def itemsOf (read : Json → Option α) : Json → Option (List α)
  | .array items => items.mapM read
  | _ => none

/-- Read every value of an object. -/
def valuesOf (read : Json → Option α) : Json → Option (Dict α)
  | .object fields => fields.mapM fun (k, v) => (read v).map (k, ·)
  | _ => none

/-- Read a boolean. -/
def readBool : Json → Option Bool
  | .bool b => some b
  | _ => none

/-- Read an instant. -/
def readInstant : Json → Option Instant
  | .string s => Instant.parse? s
  | _ => none

/-- Read a value that may be null. -/
def nullable (read : Json → Option α) : Json → Option (Option α)
  | .null => some none
  | j => (read j).map some

/-- A field that has to be there. -/
def required (read : Json → Option α) (field : Option Json) : Option α :=
  field.bind read

/-- A field with a default. -/
def defaulted (default : α) (read : Json → Option α) : Option Json → Option α
  | none => some default
  | some j => read j

/-- Read a contract, given its fields by name. -/
def ofFields (field : String → Option Json) : Option Contract := do
  return {
    id := ← required Json.asString? (field "id")
    slug := ← required Json.asString? (field "slug")
    type := ← required Json.asString? (field "type")
    version := ← required Json.asString? (field "version")
    name := ← defaulted none (nullable Json.asString?) (field "name")
    active := ← defaulted true readBool (field "active")
    tags := ← defaulted [] (itemsOf Json.asString?) (field "tags")
    markers := ← defaulted [] (itemsOf Json.asString?) (field "markers")
    requires := ← defaulted [] Json.asArray? (field "requires")
    capabilities := ← defaulted [] Json.asArray? (field "capabilities")
    links := ← defaulted [] (valuesOf Json.asArray?) (field "links")
    linkedAt := ← defaulted [] (valuesOf readInstant) (field "linked_at")
    createdAt := ← required readInstant (field "created_at")
    updatedAt := ← defaulted none (nullable readInstant) (field "updated_at")
    data := (field "data").getD (.object []) }

/-- The order of the fields in a contract written as an array. -/
def fieldOrder : List String :=
  ["id", "slug", "type", "version", "name", "active", "tags", "markers",
   "requires", "capabilities", "links", "linked_at", "created_at",
   "updated_at", "data"]

/-- Read a full contract: an object, or an array of the fields in their
    order. -/
def ofJson? : Json → Option Contract
  | .object fields => ofFields (Dict.find? fields)
  | .array items =>
      if fieldOrder.length < items.length then none
      else ofFields fun key => (fieldOrder.zip items).lookup key
  | _ => none

/-- Read a full contract, or say that it is none. -/
def ofJson (j : Json) : Except Error Contract :=
  match ofJson? j with
  | some c => .ok c
  | none => .error .malformedJson

/-! ## Identity and defaults -/

/-- The version of a contract, read. -/
def parsedVersion (c : Contract) : Except Error Version :=
  Version.parse c.version

/-- Check the fields that identify a contract. -/
def checkIdentity (c : Contract) : Except Error Unit := do
  if c.id.isEmpty then .error .idUndefined
  if c.slug.isEmpty then .error .slugUndefined
  let _ ← c.parsedVersion

/-- The slug of a partial definition: its own, or one derived from the
    name. -/
def slugOf (fields : Dict Json) : Except Error String :=
  let derived := fun (_ : Unit) =>
    match (Dict.find? fields "name").bind Json.asString? with
    | some name =>
        if (TextLibrary.slug name).isEmpty then .error .slugUndefined
        else .ok (TextLibrary.slug name)
    | none => .error .slugUndefined
  match (Dict.find? fields "slug").bind Json.asString? with
  | some slug => if slug.isEmpty then derived () else .ok slug
  | none => derived ()

/-- Give a field a value unless it has one that is not null. -/
def fill (fields : Dict Json) (key : String) (value : Json) : Dict Json :=
  match Dict.find? fields key with
  | none | some .null => Dict.insert fields key value
  | some _ => fields

/-- Complete a partial definition.  `id` and `now` are used where it names
    no id and no time of creation. -/
def ofPartial (id : String) (now : Instant) : Json → Except Error Contract
  | .object fields =>
      match (Dict.find? fields "type").bind Json.asString? with
      | none => .error .contractWithoutType
      | some type =>
          if type.isEmpty then .error .contractWithoutType
          else do
            let slug ← slugOf fields
            let fields := Dict.insert fields "slug" (.string slug)
            let fields := fill fields "id" (.string id)
            let fields := fill fields "version" (.string Version.initial.text)
            let fields := fill fields "created_at" (.string now.orderText)
            match ofFields (Dict.find? fields) with
            | none => .error .malformedContract
            | some c =>
                c.checkIdentity
                .ok c
  | other => .error (.contractNotObject other)

end Contract

end LinkedContracts
