import LinkedContracts.Contract

/-! # Links

    A link is a named connection between two contracts, itself kept as a
    contract of type `link`.  It has one name seen from its `from` side and
    another seen from its `to` side. -/

namespace LinkedContracts

/-- A link between two contracts. -/
structure Link where
  id : String
  name : String
  inverseName : String
  fromId : String
  toId : String
  active : Bool
  createdAt : Instant
deriving DecidableEq

/-- A link as seen from one of its ends. -/
structure Linked where
  name : String
  id : String
  since : Instant
deriving DecidableEq

namespace Link

/-- The type of link contracts. -/
def type : String := "link@1.0.0"

/-- The id an endpoint names: a string, or the `id` of an object. -/
def endpoint? (data : Json) (side : String) : Option String :=
  match data.field? side with
  | some (.string id) => some id
  | some (.object fields) => (Dict.find? fields "id").bind Json.asString?
  | _ => none

/-- Whether a type names links, in whatever version. -/
def isLinkType (type : String) : Bool :=
  (type.toList.takeWhile (· != '@')) == ['l', 'i', 'n', 'k']

/-- The link a contract describes, if it describes one. -/
def ofContract? (c : Contract) : Option Link :=
  if isLinkType c.type then do
    let name ← c.name
    let inverseName ← c.data.stringField? "inverseName"
    let fromId ← endpoint? c.data "from"
    let toId ← endpoint? c.data "to"
    return ⟨c.id, name, inverseName, fromId, toId, c.active, c.createdAt⟩
  else none

/-- The contract at the other end, seen from the contract `id`. -/
def otherEnd? (l : Link) (id : String) : Option String :=
  if l.fromId = id then some l.toId
  else if l.toId = id then some l.fromId
  else none

/-- The link as it looks from the contract `id`. -/
def seenFrom? (l : Link) (id : String) : Option Linked :=
  if l.fromId = id then some ⟨l.name, l.toId, l.createdAt⟩
  else if l.toId = id then some ⟨l.inverseName, l.fromId, l.createdAt⟩
  else none

/-- Record on a contract that it was linked; `none` if the link does not
    touch it. -/
def stamp? (l : Link) (c : Contract) : Option Contract :=
  (l.seenFrom? c.id).map fun linked =>
    { c with linkedAt := Dict.insert c.linkedAt linked.name linked.since }

/-- Give an endpoint's type the initial version if it has none. -/
def pinType (fields : Dict Json) : Dict Json :=
  match Dict.find? fields "type" with
  | some (.string t) =>
      if '@' ∈ t.toList then fields
      else Dict.insert fields "type" (.string (t ++ "@1.0.0"))
  | _ => fields

/-- Pin the endpoint type on one side of a link's data. -/
def pinSide (data : Json) (side : String) : Json :=
  match data with
  | .object fields =>
      match Dict.find? fields side with
      | some (.object e) =>
          .object (Dict.insert fields side (.object (pinType e)))
      | _ => data
  | _ => data

/-- Pin the endpoint types of a link contract. -/
def pinEndpoints (c : Contract) : Contract :=
  if c.type = type then
    { c with data := pinSide (pinSide c.data "from") "to" }
  else c

end Link

end LinkedContracts
