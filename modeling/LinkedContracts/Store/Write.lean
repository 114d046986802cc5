import LinkedContracts.Store

/-! # Writing contracts

    A contract is written with its version in canonical form.  If there is a
    contract with its slug and version, or else with its id, an insert fails
    and an upsert replaces that contract, which keeps its id and its time of
    creation.

    Writing a link also changes the two contracts it connects: an active
    link leaves its stamp on them, and both are announced as updated, after
    the link itself. -/

namespace LinkedContracts

/-- What to do about a contract that exists already. -/
inductive WriteMode where
  | insert
  | upsert
deriving DecidableEq

namespace Store

/-- The contract as it is kept: its version in canonical form, and no
    links. -/
def canonical (c : Contract) : Except Error Contract := do
  c.checkIdentity
  let version ← c.parsedVersion
  return { c with version := version.text, links := [] }

/-- The contract that a written one takes the place of. -/
def existing? (s : Store) (c : Contract) : Option Contract :=
  match s.versioned? c.slug c.version with
  | some found => some found
  | none => s.contract? c.id

/-- The written contract in the place of an existing one. -/
def replacing (now : Instant) (c found : Contract) : Contract :=
  { c with id := found.id, createdAt := found.createdAt, updatedAt := some now }

/-- The ids a link connects, each once. -/
def endpointIds (l : Link) : List String :=
  if l.toId = l.fromId then [l.fromId] else [l.fromId, l.toId]

/-- The contracts a link connects, with their images. -/
def endpoints (s : Store) (link : Option Link) : List (Contract × Json) :=
  match link with
  | none => []
  | some l =>
      (endpointIds l).filterMap fun id =>
        (s.contract? id).map fun c => (c, s.image c)

/-- Put the stamp of an active link on a contract it connects. -/
def stamp (s : Store) (l : Link) (c : Contract) : Store × Contract :=
  match (if l.active then l.stamp? c else none) with
  | some stamped => (s.put stamped, stamped)
  | none => (s, c)

/-- Stamp the contracts a link connects, and announce each as updated. -/
def stampAll (l : Link) :
    Store → List (Contract × Json) → Store × List Change
  | s, [] => (s, [])
  | s, (c, before) :: rest =>
      let (s, c) := s.stamp l c
      let change : Change := ⟨c.id, .update, some before, some (s.image c)⟩
      let (s, changes) := stampAll l s rest
      (s, change :: changes)

/-- Keep a link and stamp the contracts it connects. -/
def relink (s : Store) (link : Option Link) (ends : List (Contract × Json)) :
    Store × List Change :=
  match link with
  | none => (s, [])
  | some l => stampAll l (s.putLink l) ends

/-- Put a contract in the place of `found`, and announce it. -/
def writeOver (s : Store) (c : Contract) (found : Option Contract) : Store :=
  let before := found.map s.image
  let link := Link.ofContract? c
  let ends := s.endpoints link
  let (s, changes) := (s.put c).relink link ends
  let kind := if found.isSome then ChangeKind.update else .insert
  let change : Change := ⟨c.id, kind, before, some (s.image c)⟩
  { s with pending := s.pending ++ change :: changes }

/-- Write a contract. -/
def write (s : Store) (now : Instant) (mode : WriteMode) (c : Contract) :
    Except Error (Contract × Store) := do
  let c ← canonical c
  match s.existing? c, mode with
  | some found, .insert => .error (.alreadyExists c.versionedSlug found.id)
  | some found, .upsert =>
      let c := replacing now c found
      return (c, s.writeOver c (some found))
  | none, _ => return (c, s.writeOver c none)

end Store

end LinkedContracts
