import LinkedContracts.Json.Reader
import LinkedContracts.Link

/-! # The store

    The store keeps contracts by id and the active links by the id of the
    link.  A contract is kept as the text of its document and read back from
    there; a contract whose text cannot be read is as good as missing.  No
    two contracts share an id, nor a slug and version.

    The contracts linked to a contract, under a name, are at the other ends
    of its links.  An image of a contract is its document with the linked
    contracts under `links`. -/

namespace LinkedContracts

/-- What reading back the text of a contract's document gives. -/
def Contract.reread (c : Contract) : Option Contract :=
  (Json.parse? c.toRow.render).bind Contract.ofJson?

/-- A kept contract. -/
structure StoredRow where
  /-- The contract as it was put. -/
  written : Contract
  /-- The contract as it is read back. -/
  contents : Option Contract
  contents_eq : contents = written.reread

/-- The row of a contract. -/
def StoredRow.ofContract (c : Contract) : StoredRow := ⟨c, c.reread, rfl⟩

/-- A kept link. -/
structure Edge where
  name : String
  inverseName : String
  fromId : String
  toId : String
deriving DecidableEq

namespace Edge

/-- The edge of a link. -/
def ofLink (l : Link) : Edge := ⟨l.name, l.inverseName, l.fromId, l.toId⟩

/-- Whether the edge attaches to a contract under a name. -/
def attaches (e : Edge) (id name : String) : Bool :=
  (e.fromId == id && e.name == name) || (e.toId == id && e.inverseName == name)

/-- The other end, seen from a contract. -/
def farEnd (e : Edge) (id : String) : String :=
  if e.fromId = id then e.toId else e.fromId

/-- The name of the edge, seen from a contract. -/
def nameFrom (e : Edge) (id : String) : String :=
  if e.fromId = id then e.name else e.inverseName

end Edge

/-- The kind of a change. -/
inductive ChangeKind where
  | insert
  | update
  | delete
deriving DecidableEq

/-- The name of a kind of change. -/
def ChangeKind.name : ChangeKind → String
  | insert => "insert"
  | update => "update"
  | delete => "delete"

/-- A change to a contract, with its images before and after. -/
structure Change where
  id : String
  kind : ChangeKind
  before : Option Json
  after : Option Json

/-- The kept contracts and links, and the changes that are not announced
    yet. -/
structure Store where
  rows : Dict StoredRow := []
  edges : Dict Edge := []
  pending : List Change := []

namespace Store

/-! ## Contracts -/

/-- All contracts that can be read. -/
def contracts (s : Store) : List Contract :=
  s.rows.filterMap fun (_, row) => row.contents

/-- The contract with an id. -/
def contract? (s : Store) (id : String) : Option Contract :=
  (Dict.find? s.rows id).bind StoredRow.contents

/-- The contract with a slug and the text of a version. -/
def versioned? (s : Store) (slug version : String) : Option Contract :=
  s.rows.findSome? fun (_, row) =>
    if row.written.slug = slug ∧ row.written.version = version then row.contents
    else none

/-- The contracts with a slug whose versions can be read, with their
    versions. -/
def versions (s : Store) (slug : String) : List (Version × Contract) :=
  s.rows.filterMap fun (_, row) =>
    if row.written.slug = slug then
      row.contents.bind fun c =>
        (Version.parse? c.version).map fun v => (v, c)
    else none

/-- The later of two contracts by version; of equal ones the second. -/
def later (a b : Version × Contract) : Version × Contract :=
  if Version.cmp a.1 b.1 == .gt then a else b

/-- The contract with a slug and the greatest version. -/
def latest? (s : Store) (slug : String) : Option Contract :=
  match s.versions slug with
  | [] => none
  | first :: rest => some (rest.foldl later first).2

/-- The contract a slug and version choice refer to. -/
def find? (s : Store) (slug : String) : VersionChoice → Option Contract
  | .exact v => s.versioned? slug v.text
  | .latest => s.latest? slug

/-! ## Links -/

/-- The order of linked contracts: by time of creation, then by id. -/
def linkedBefore (a b : StoredRow) : Bool :=
  ((compare a.written.createdAt.orderText b.written.createdAt.orderText).then
    (compare a.written.id b.written.id)) != .gt

/-- The rows at the other ends of the links of a contract under a name. -/
def linkedRows (s : Store) (id name : String) : List StoredRow :=
  s.edges.filterMap fun (_, e) =>
    if e.attaches id name then
      (Dict.find? s.rows (e.farEnd id)).filter fun row => row.written.active
    else none

/-- The active contracts linked to a contract under a name, one for each
    link. -/
def linked (s : Store) (id name : String) : List Contract :=
  ((s.linkedRows id name).mergeSort linkedBefore).filterMap StoredRow.contents

/-! ## Images -/

/-- Add a contract under a link name. -/
def addLinked (links : Dict (List Json)) (name : String) (row : Json) :
    Dict (List Json) :=
  Dict.insert links name ((Dict.find? links name).getD [] ++ [row])

/-- The active contracts linked to a contract, by link name. -/
def linksOf (s : Store) (id : String) : Dict (List Json) :=
  s.edges.foldl (fun links (_, e) =>
    if e.fromId = id ∨ e.toId = id then
      match (s.contract? (e.farEnd id)).filter Contract.active with
      | some other => addLinked links (e.nameFrom id) other.toRow
      | none => links
    else links) []

/-- The image of a contract. -/
def image (s : Store) (c : Contract) : Json :=
  .object (Dict.insert c.rowFields "links" (Contract.linksJson (s.linksOf c.id)))

/-! ## Putting -/

/-- Put a contract, in place of those with its id or its slug and
    version. -/
def put (s : Store) (c : Contract) : Store :=
  let kept := s.rows.filter fun (id, row) =>
    id == c.id || !(row.written.slug == c.slug && row.written.version == c.version)
  { s with rows := Dict.insert kept c.id (.ofContract c) }

/-- Keep an active link and drop an inactive one. -/
def putLink (s : Store) (l : Link) : Store :=
  { s with edges :=
      if l.active then Dict.insert s.edges l.id (.ofLink l)
      else Dict.erase s.edges l.id }

end Store

end LinkedContracts
