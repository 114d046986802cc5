import LinkedContracts.Error
import LinkedContracts.Pointer

/-! # Patches

    A patch is a list of operations on a contract, each at a path.  They
    apply in turn, and either all of them or none.

    Some properties are not for patches to change; operations on them are
    passed over.  An operation that needs something at its path, and finds
    nothing there, is a mismatch with the contract rather than a bad
    patch. -/

namespace LinkedContracts

/-- An operation of a patch. -/
inductive PatchOperation where
  | add (path : String) (value : Json)
  | remove (path : String)
  | replace (path : String) (value : Json)
  | move (source path : String)
  | copy (source path : String)
  | test (path : String) (value : Json)

namespace PatchOperation

/-- The path an operation changes or tests. -/
def path : PatchOperation → String
  | add p _ | remove p | replace p _ | move _ p | copy _ p | test p _ => p

/-- The path that has to lead somewhere before the operation. -/
def source? : PatchOperation → Option String
  | add .. => none
  | move s _ | copy s _ => some s
  | remove p | replace p _ | test p _ => some p

end PatchOperation

namespace Patch

/-! ## Reading -/

/-- The names of what an operation holds, besides its kind. -/
def partNames : String → List String
  | "remove" => ["path"]
  | "move" | "copy" => ["from", "path"]
  | _ => ["path", "value"]

/-- Read an operation, given its kind and its parts by name. -/
def ofParts (kind : String) (part : String → Option Json) :
    Option PatchOperation := do
  let path := (part "path").bind Json.asString?
  let source := (part "from").bind Json.asString?
  match kind with
  | "add" => return .add (← path) (← part "value")
  | "remove" => return .remove (← path)
  | "replace" => return .replace (← path) (← part "value")
  | "move" => return .move (← source) (← path)
  | "copy" => return .copy (← source) (← path)
  | "test" => return .test (← path) (← part "value")
  | _ => none

/-- Read an operation: an object, or an array of its kind and its parts in
    their order. -/
def readOperation : Json → Option PatchOperation
  | .object fields => do
      let kind ← (Dict.find? fields "op").bind Json.asString?
      ofParts kind (Dict.find? fields)
  | .array (.string kind :: parts) =>
      if (partNames kind).length < parts.length then none
      else ofParts kind fun name => ((partNames kind).zip parts).lookup name
  | _ => none

/-- Read a patch. -/
def parse (j : Json) : Except Error (List PatchOperation) :=
  match j with
  | .array items =>
      match items.mapM readOperation with
      | some operations => .ok operations
      | none => .error .malformedPatch
  | _ => .error .malformedPatch

/-! ## Properties that patches do not change -/

/-- The properties that no patch changes. -/
def immutable : List String :=
  ["id", "links", "linked_at", "created_at", "updated_at"]

/-- Whether a path leads to or into such a property. -/
def isImmutable (path : String) : Bool :=
  match Pointer.parse? path with
  | some (token :: _) => token ∈ immutable
  | _ => false

/-- Whether an operation would change such a property. -/
def touchesImmutable (op : PatchOperation) : Bool :=
  (match op with
    | .move source _ => isImmutable source
    | _ => false) || isImmutable op.path

/-! ## Applying -/

/-- The tokens of the path of an operation. -/
def tokens (path : String) : Except PatchFault (List String) :=
  match Pointer.parse? path with
  | none => .error (.malformedPath path)
  | some [] => .error .wholeContract
  | some ts => .ok ts

/-- A container with a value added at a token: a field, or an item before
    the one counted, where a hyphen counts past the last. -/
def addTo (value : Json) (token : String) : Json → Except PatchFault Json
  | .object fields => .ok (.object (Dict.insert fields token value))
  | .array items =>
      if token = "-" then .ok (.array (items ++ [value]))
      else match word? token.toList with
        | some i =>
            if i ≤ items.length then .ok (.array (items.insertIdx i value))
            else .error (.badIndex token)
        | none => .error (.badIndex token)
  | _ => .error (.addToScalar token)

/-- A container without what is at a token. -/
def removeFrom (token : String) : Json → Except PatchFault Json
  | .object fields =>
      if Dict.contains fields token then .ok (.object (Dict.erase fields token))
      else .error (.missing token)
  | .array items =>
      match Pointer.index? token items.length with
      | some i => .ok (.array (items.eraseIdx i))
      | none => .error (.badIndex token)
  | _ => .error (.removeFromScalar token)

/-- Change the container that the last token of a path is about. -/
def changeParent (change : String → Json → Except PatchFault Json)
    (doc : Json) (ts : List String) : Except PatchFault Json :=
  let missing := PatchFault.missingParent ts
  match ts.getLast?, doc.lookup? ts.dropLast with
  | some token, some parent => do
      let parent ← change token parent
      match doc.replace? ts.dropLast parent with
      | some doc => .ok doc
      | none => .error missing
  | _, _ => .error missing

/-- Add a value. -/
def addAt (doc : Json) (ts : List String) (value : Json) :
    Except PatchFault Json :=
  changeParent (addTo value) doc ts

/-- Remove what a path leads to. -/
def removeAt (doc : Json) (ts : List String) : Except PatchFault Json :=
  changeParent removeFrom doc ts

/-- Whether a path leads into another one. -/
def leadsInto (path source : String) : Bool :=
  (source.toList ++ ['/']).isPrefixOf path.toList

/-- Apply an operation. -/
def applyOperation (doc : Json) : PatchOperation → Except PatchFault Json
  | .add path value => do addAt doc (← tokens path) value
  | .remove path => do removeAt doc (← tokens path)
  | .replace path value => do
      let ts ← tokens path
      match doc.replace? ts value with
      | some doc => .ok doc
      | none => .error (.missing path)
  | .move source path =>
      if leadsInto path source then .error (.intoItself source)
      else do
        let ts ← tokens source
        let rest ← removeAt doc ts
        addAt rest (← tokens path) ((doc.lookup? ts).getD .null)
  | .copy source path => do
      let ts ← tokens source
      match doc.lookup? ts with
      | some value => addAt doc (← tokens path) value
      | none => .error (.missing source)
  | .test path value => do
      let ts ← tokens path
      match doc.lookup? ts with
      | some actual =>
          if actual.equal value then .ok doc else .error (.testFailed path)
      | none => .error (.testFailed path)

/-- Check that there is something at the path an operation needs. -/
def checkSource (slug : String) (doc : Json) (op : PatchOperation) :
    Except Error Unit :=
  match op.source? with
  | none => .ok ()
  | some path =>
      match Pointer.parse? path with
      | none => .error (.badPointer path)
      | some ts =>
          if (doc.lookup? ts).isSome then .ok ()
          else .error (.pathMissing path slug)

/-- Apply one operation of a patch to the contract with a slug. -/
def step (slug : String) (doc : Json) (op : PatchOperation) :
    Except Error Json :=
  if touchesImmutable op then .ok doc
  else do
    checkSource slug doc op
    match applyOperation doc op with
    | .ok doc => .ok doc
    | .error fault => .error (.patchDoesNotApply slug fault)

/-- Apply a patch. -/
def apply (contract : Json) (operations : List PatchOperation) :
    Except Error Json :=
  operations.foldlM (step ((contract.stringField? "slug").getD "")) contract

end Patch

end LinkedContracts
