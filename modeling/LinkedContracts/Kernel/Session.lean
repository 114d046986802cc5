import LinkedContracts.Kernel

/-! # Sessions

    A session is a contract that names the actor behind it.  The actor's
    roles say what may be read, its markers which marked contracts may be
    seen, and the session may restrict this further.  All together make the
    mask of the session. -/

namespace LinkedContracts

/-- Who is behind a session. -/
structure Actor where
  contract : Contract
  /-- The roles, the actor's own slug first. -/
  roles : List String
  /-- The markers that may be seen: the actor's own slug, and those of its
      organisations. -/
  markers : List String
  /-- What the session itself is restricted to. -/
  scope : Option Schema

namespace Kernel

/-- Add a text that is new. -/
def addNew (known : List String) (s : String) : List String :=
  if s ∈ known then known else known ++ [s]

/-- Whether a type is of a given name, in whatever version. -/
def typeIs (type name : String) : Bool :=
  (name.toList ++ ['@']).isPrefixOf type.toList

/-- Whether a time of expiration, if there is one, has come.  One that
    cannot be read has. -/
def expired (now : Instant) (data : Json) : Bool :=
  match data.stringField? "expiration" with
  | none => false
  | some text =>
      match Instant.parseStrict? text with
      | some t => t.le now
      | none => true

/-- The roles of an actor. -/
def rolesOf (actor : Contract) : List String :=
  let own := ((actor.data.field? "roles").bind Json.asArray?).getD []
  (own.filterMap Json.asString?).foldl addNew [actor.slug]

/-- The markers of an actor that is linked to organisations. -/
def markersOf (actor : Contract) (linked : List Contract) : List String :=
  ((linked.filter fun c => typeIs c.type "org").map Contract.slug).foldl addNew
    [actor.slug]

/-- What a session is restricted to. -/
def scopeOf (session : Contract) : Except Error (Option Schema) :=
  match session.data.field? "scope" with
  | some (.object (f :: fs)) => (Schema.ofJson (.object (f :: fs))).map some
  | _ => .ok none

/-- The actor behind a session. -/
def actor (k : Kernel) (session : String) : Except Error Actor := do
  let bad := Error.badSession session
  let some s := k.store.contract? session | .error bad
  if !typeIs s.type "session" || !s.active then .error bad
  if expired k.supply.now s.data then .error (.sessionExpired session)
  let some id := s.data.stringField? "actor" | .error bad
  let some contract := k.store.contract? id | .error bad
  let linked ← k.linked contract.id membership
  let scope ← scopeOf s
  return ⟨contract, rolesOf contract, markersOf contract linked, scope⟩

/-- What a role lets its holders read, if it is an active role that says
    so. -/
def readable (k : Kernel) (role : String) : Option Json :=
  ((k.store.latest? ("role-" ++ role)).filter Contract.active).bind fun c =>
    c.data.field? "read"

/-- The mask of an actor.  One whose roles let it read nothing sees
    nothing. -/
def maskOf (k : Kernel) (a : Actor) : Except Error Schema := do
  let roles ← (a.roles.filterMap k.readable).mapM Schema.ofJson
  if roles.isEmpty then return .bool false
  else
    return .conj ([.disj roles, Mask.ofMarkers a.markers] ++ a.scope.toList)

/-- The mask of a session: every contract it may see satisfies it. -/
def mask (k : Kernel) (session : String) : Except Error Schema := do
  k.maskOf (← k.actor session)

end Kernel

end LinkedContracts
