import LinkedContracts.Kernel.Read
import LinkedContracts.Patch
import LinkedContracts.Validation

/-! # Writing

    A contract that a session writes has to satisfy its type, and the mask
    of the session.  To replace or patch a contract the session has to see
    it.

    A patch is applied twice, to the contract and to what the session sees
    of it.  It must not change what the session does not see, and what it
    leaves has to be visible to the session still. -/

namespace LinkedContracts

variable [TextLibrary]

namespace Kernel

/-- Whether a mask accepts a contract. -/
def accepts (k : Kernel) (mask : Schema) (contract : Json) :
    Except Error Bool := do
  (← Validator.ofSchema mask).accepts contract k.linkSource

/-- Complete a partial definition and check that it may be written. -/
def prepare (mask : Schema) (definition : Json) : Action Contract := do
  let c ← normalize definition
  reading fun k => do
    let schema ← k.typeSchema c.type
    schema.check c.toJson k.linkSource
    if ← k.accepts mask c.toJson then return c
    else .error (.mayNotWrite c.versionedSlug)

/-- Write a new contract for a session. -/
def insertFor (session : String) (definition : Json) : Action Contract := do
  let mask ← reading fun k => k.mask session
  insert (← prepare mask definition)

/-- Check that a session with a mask may replace what a contract takes the
    place of. -/
def checkReplaced (k : Kernel) (mask : Schema) (c : Contract) :
    Except Error Unit := do
  let version ← c.parsedVersion
  match k.store.find? c.slug (.exact version) with
  | none => return ()
  | some found =>
      if (← k.visible mask found.id).isSome then return ()
      else .error (.mayNotReplace c.versionedSlug)

/-- Write a contract for a session, in place of the one with its slug and
    version. -/
def replaceFor (session : String) (definition : Json) : Action Contract := do
  let mask ← reading fun k => k.mask session
  let c ← prepare mask definition
  transaction do
    reading fun k => k.checkReplaced mask c
    upsert c

/-! ## Patches -/

/-- Whether two contracts differ in a property. -/
def differAt (before after : Dict Json) (key : String) : Bool :=
  match Dict.find? before key, Dict.find? after key with
  | some a, some b => !a.equal b
  | none, none => false
  | _, _ => true

/-- A property that a patch changed although the mask hides it. -/
def forbiddenChange (mask : Schema) : Json → Json → Option String
  | .object before, .object after =>
      (Dict.keys before ++ Dict.keys after).find? fun key =>
        differAt before after key && Mask.forbids mask key
  | _, _ => none

/-- Apply a patch to what a session sees of a contract. -/
def patchView (k : Kernel) (mask : Schema) (reference : String) (view : Json)
    (operations : List PatchOperation) : Except Error Json := do
  let patched ← Patch.apply view operations
  match forbiddenChange mask view patched with
  | some key => .error (.mayNotChange key reference)
  | none =>
      if ← k.accepts mask patched then return patched
      else .error (.patchedInvisible reference)

/-- Check a patched contract; what is wrong with it is not told. -/
def checkPatched (k : Kernel) (schema : Schema) (patched : Json) :
    Except Error Unit :=
  match schema.check patched k.linkSource with
  | .error (.mismatch _) => .error .invalidUpdate
  | other => other

/-- Read a patched contract. -/
def readPatched (patched : Json) : Except Error Contract :=
  match Contract.ofJson? patched with
  | none => .error .invalidUpdate
  | some c => c.checkIdentity.map fun _ => c

/-- A patch at work: what the session sees after it, and the contract to
    write unless nothing changed. -/
structure Patched where
  view : Json
  contract : Option Contract

/-- Apply a patch to the contract a reference names and to what a session
    sees of it. -/
def patched (k : Kernel) (mask : Schema) (reference : String) (r : Reference)
    (operations : List PatchOperation) : Except Error Patched := do
  let missing := Error.noElement reference
  let some found := k.store.find? r.slug r.version | .error missing
  let some full := k.store.contract? found.id | .error missing
  let some view ← k.visible mask full.id | .error missing
  if operations.isEmpty then return ⟨view, none⟩
  else
    let schema ← k.typeSchema (Reference.ofType full.type)
    let patchedView ← k.patchView mask reference view operations
    let patched ← Patch.apply full.toJson operations
    k.checkPatched schema patched
    if patched.equal full.toJson then return ⟨patchedView, none⟩
    else return ⟨patchedView, some (← readPatched patched)⟩

/-- Patch the contract a reference names for a session.  What the session
    sees of the patched contract results. -/
def patchFor (session reference : String) (operations : List PatchOperation) :
    Action Json := do
  let r ← Reference.parse reference
  let mask ← reading fun k => k.mask session
  transaction do
    let p ← reading fun k => k.patched mask reference r operations
    match p.contract with
    | none => return p.view
    | some c =>
        let _ ← upsert c
        return p.view

end Kernel

end LinkedContracts
