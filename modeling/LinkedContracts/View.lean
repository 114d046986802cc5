import LinkedContracts.Schema.Document

/-! # Views

    A view is a contract that stands for a schema, so that a query can be
    stored.  It has the schema itself, or branches that all have to hold and
    branches of which one has to hold. -/

namespace LinkedContracts

namespace View

/-- The type of views. -/
def type : String := "view@1.0.0"

/-- Whether a document is a view. -/
def isView (j : Json) : Bool := j.stringField? "type" == some type

/-- The schemas of the branches of one kind, counted from `index`. -/
def branches (slug key : String) : Nat → List Json → Except Error (List Schema)
  | _, [] => .ok []
  | index, entry :: rest =>
      match entry.field? "schema" with
      | none => .error (.viewWithoutSchema slug key index)
      | some schema => do
          let s ← Schema.ofJson schema
          let ss ← branches slug key (index + 1) rest
          return s :: ss

/-- The schemas of the branches of a view of one kind. -/
def branchesOf (view : Json) (key : String) : Except Error (List Schema) :=
  let entries := (view.field? "data").bind fun data =>
    (data.field? key).bind Json.asArray?
  branches ((view.stringField? "slug").getD "") key 0 (entries.getD [])

/-- Schemas that all have to hold, as one schema. -/
def together : List Schema → Schema
  | [] => .bool true
  | [s] => s
  | ss => .conj ss

/-- The schema a view stands for. -/
def schema (view : Json) : Except Error Schema :=
  match (view.field? "data").bind (·.field? "schema") with
  | none | some .null => do
      let all ← branchesOf view "allOf"
      let any ← branchesOf view "anyOf"
      return together (all ++ if any.isEmpty then [] else [.disj any])
  | some s => Schema.ofJson s

end View

/-- The schema of a query, which may be a view. -/
def Schema.ofQuery (query : Json) : Except Error Schema :=
  if View.isView query then View.schema query else Schema.ofJson query

end LinkedContracts
