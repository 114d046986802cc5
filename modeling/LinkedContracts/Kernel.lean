import LinkedContracts.Query.Masked
import LinkedContracts.Schema.Document
import LinkedContracts.Store.Run
import LinkedContracts.Store.Write

/-! # The kernel

    A kernel is a store with its settings and whatever it needs to make new
    contracts: a supply of ids and times.  Its operations either succeed or
    fail; the kernel after a failed operation is the one it left behind.

    A transaction is all or nothing: if it fails, contracts and links are as
    before it, and its changes are not announced.  A transaction inside
    another one is part of that one. -/

namespace LinkedContracts

variable [TextLibrary]

/-- Ids and times for what is made. -/
structure Supply where
  id : Nat → String
  time : Nat → Instant
  /-- How many have been used. -/
  used : Nat

/-- The next time. -/
def Supply.now (s : Supply) : Instant := s.time s.used

/-- The supply after one use. -/
def Supply.next (s : Supply) : Supply := { s with used := s.used + 1 }

/-- A part of the store that is out of order. -/
inductive Outage where
  | pages
  | upserts
  | links
deriving DecidableEq

/-- The name of the operation that times out. -/
def Outage.operation : Outage → String
  | pages => "execute"
  | upserts => "upsert"
  | links => "links"

/-- A store with all it takes to work on it. -/
structure Kernel where
  settings : Settings
  supply : Supply
  store : Store := {}
  /-- How many transactions are under way. -/
  depth : Nat := 0
  /-- The session of the administrator, once there is one. -/
  adminSession : Option String := none
  outage : Option Outage := none
  /-- The changes announced so far. -/
  announced : List Change := []

/-- An operation of a kernel. -/
abbrev Action (α : Type) := ExceptT Error (StateM Kernel) α

namespace Kernel

/-! ## Opening -/

/-- Names that the tables of a store cannot have, in lower case. -/
def reservedNames : List String :=
  ["idx_contracts_type", "idx_links_from", "idx_links_to"]

/-- Whether a store can have a table of this name. -/
def tableAllowed (name : String) : Bool :=
  let lower := (name.toList.map Char.toLower)
  !"sqlite_".toList.isPrefixOf lower && !lower.contains (Char.ofNat 0)
    && !reservedNames.contains (String.ofList lower)

/-- Whether a store can have both tables.  Names that differ in letter case
    only are the same. -/
def tablesAllowed (t : Tables) : Bool :=
  tableAllowed t.contracts && tableAllowed t.links
    && t.contracts.toList.map Char.toLower != t.links.toList.map Char.toLower

/-- A kernel with an empty store. -/
def create (settings : Settings) (supply : Supply) : Except Error Kernel := do
  settings.check
  if tablesAllowed settings.tables then return { settings, supply }
  else .error .tableRefused

/-- The kernel when its store is opened again. -/
def reopened (k : Kernel) : Kernel :=
  { k with adminSession := none, outage := none }

/-! ## Operations -/

/-- An operation that changes nothing. -/
def reading (f : Kernel → Except Error α) : Action α := fun k => (f k, k)

/-- Announce the changes of a transaction. -/
def announce (k : Kernel) : Kernel :=
  { k with
    announced := k.announced ++ k.store.pending
    store := { k.store with pending := [] } }

/-- Do all of an operation or nothing of it. -/
def transaction (body : Action α) : Action α := fun k =>
  let (result, after) := body { k with depth := k.depth + 1 }
  let after := { after with depth := k.depth }
  if 0 < k.depth then (result, after)
  else match result with
    | .ok a => (.ok a, after.announce)
    | .error e =>
        (.error e, { after with store := { k.store with pending := [] } })

/-- The session of the administrator. -/
def admin (k : Kernel) : Except Error String :=
  match k.adminSession with
  | some id => .ok id
  | none => .error .notInitialized

/-! ## The store behind the kernel -/

/-- The link from a user to the organisations whose markers it carries. -/
def membership : String := "is member of"

/-- The contracts linked to a contract under a name. -/
def linked (k : Kernel) (id name : String) : Except Error (List Contract) :=
  if k.outage = some .links ∧ name ≠ membership then
    .error (.timedOut (Outage.operation .links))
  else .ok (k.store.linked id name)

/-- The linked contracts, as rows. -/
def linkSource (k : Kernel) : LinkSource := fun parent name =>
  match parent.stringField? "id" with
  | some id => (k.linked id name).map (·.map Contract.toRow)
  | none => .ok []

/-- The rows of a query. -/
def run (k : Kernel) (q : Query) : Except Error (List Json) :=
  if k.outage = some .pages ∧ q.options.limit.isSome then
    .error (.timedOut (Outage.operation .pages))
  else k.store.run q

/-- Complete a partial definition. -/
def complete (definition : Json) : Action Contract := fun k =>
  (Contract.ofPartial (k.supply.id k.supply.used) k.supply.now definition,
    { k with supply := k.supply.next })

/-- Write a contract. -/
def write (mode : WriteMode) (c : Contract) : Action Contract :=
  transaction fun k =>
    match k.store.write k.supply.now mode c with
    | .ok (written, store) =>
        (.ok written, { k with store := store, supply := k.supply.next })
    | .error e => (.error e, k)

/-- Write a new contract. -/
def insert (c : Contract) : Action Contract := write .insert c

/-- Write a contract, in place of the one with its slug and version. -/
def upsert (c : Contract) : Action Contract := do
  if (← get).outage = some .upserts then
    throw (.timedOut (Outage.operation .upserts))
  else write .upsert c

/-! ## Types -/

/-- The schema a type contract stands for. -/
def schemaOf (c : Contract) : Except Error Schema :=
  Schema.ofJson (c.typeSchema?.getD (.bool true))

/-- The schema of the type that a reference names. -/
def typeSchema (k : Kernel) (reference : String) : Except Error Schema :=
  match Reference.parse reference with
  | .error _ => .error (.unknownType reference)
  | .ok r =>
      match (k.store.find? r.slug r.version).filter Contract.active with
      | none => .error (.unknownType reference)
      | some c => schemaOf c

/-- Complete a partial definition and pin its types. -/
def normalize (definition : Json) : Action Contract := do
  let c ← complete definition
  return Link.pinEndpoints { c with type := Reference.ofType c.type }

end Kernel

end LinkedContracts
