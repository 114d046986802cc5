import LinkedContracts.Builtin
import LinkedContracts.Kernel
import LinkedContracts.TextLibrary.AtHand
import LinkedContracts.Validation

/-! # Initializing

    A store is initialized by writing the built-in contracts, each checked
    against its type.  A type may describe itself, so that the first one can
    be written.  Initializing again replaces them.

    What starts a kernel with a store of its own runs with the library at
    hand. -/

namespace LinkedContracts

variable [TextLibrary]

namespace Kernel

/-- The schema of the type of a built-in contract, which may be the contract
    itself. -/
def builtinSchema (k : Kernel) (c : Contract) : Except Error Schema :=
  match k.typeSchema c.type with
  | .error (.unknownType reference) =>
      if c.versionedSlug = c.type then schemaOf c
      else .error (.unknownType reference)
  | other => other

/-- Write a built-in contract. -/
def bootstrap (definition : Json) : Action Contract := do
  let c ← normalize definition
  reading fun k => do
    (← k.builtinSchema c).check c.toJson k.linkSource
  upsert c

/-- Write the built-in contracts, and open a session of the
    administrator. -/
def bootstrapAll : Action Contract := do
  let _ ← Builtin.coreTypes.mapM bootstrap
  let _ ← bootstrap Builtin.adminRole
  let admin ← bootstrap Builtin.admin
  let session ← bootstrap (Builtin.adminSession admin.id)
  let _ ← Builtin.extraTypes.mapM bootstrap
  return session

/-- Initialize the store.  The session of the administrator results. -/
def boot : Action String := do
  let session ← transaction bootstrapAll
  modify fun k => { k with adminSession := some session.id }
  return session.id

end Kernel

end LinkedContracts
