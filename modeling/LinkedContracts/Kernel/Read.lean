import LinkedContracts.Kernel.Session
import LinkedContracts.View

/-! # Reading

    Sessions read contracts through queries, which are put behind the mask
    of the session; results are redacted by it. -/

namespace LinkedContracts

variable [TextLibrary]

namespace Kernel

/-- The results of a query behind a mask. -/
def results (k : Kernel) (mask schema : Schema) (select : Option Selection)
    (options : QueryOptions) : Except Error (List Json) := do
  let q ← Query.compileMasked k.settings mask schema select options
  let rows ← k.run q
  return rows.map fun row => Mask.redact (q.reshape row) mask

/-- The contracts that match a query, which may be a view, as a session sees
    them. -/
def query (k : Kernel) (session : String) (query : Json)
    (options : QueryOptions) : Except Error (List Json) := do
  let mask ← k.mask session
  let schema ← Schema.ofQuery query
  k.results mask schema none options

/-- The schema that asks for values of properties. -/
def withValues (required : String) (values : List (String × String)) : Schema :=
  .node
    { required := some [required]
      properties := some (values.map fun (key, value) =>
        (key, .node { const := some (.string value) })) }

/-- The contract with an id, behind a mask. -/
def visible (k : Kernel) (mask : Schema) (id : String) :
    Except Error (Option Json) :=
  (k.results mask (withValues "id" [("id", id)]) (some .empty)
    { limit := some 1 }).map List.getLast?

/-- The contract with an id, as a session sees it. -/
def getById (k : Kernel) (session id : String) : Except Error (Option Json) :=
  if id.isEmpty then .error .idUndefined
  else do k.visible (← k.mask session) id

/-- The contract a reference names, as a session sees it.  The latest
    version is the latest that the session may see. -/
def getBySlug (k : Kernel) (session reference : String) :
    Except Error (Option Json) := do
  let r ← Reference.parse reference
  let mask ← k.mask session
  let (version, options) : List (String × String) × QueryOptions :=
    match r.version with
    | .exact v => ([("version", v.text)], { limit := some 1 })
    | .latest =>
        ([], { limit := some 1, sortBy := some ["version"], descending := true })
  let found ← k.results mask
    (withValues "slug" (("slug", r.slug) :: version)) (some .empty) options
  return found.getLast?

end Kernel

end LinkedContracts
