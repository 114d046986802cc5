import LinkedContracts.Filter.Eval
import LinkedContracts.Query

/-! # Rows and results

    A row is what the statement of a query returns for a contract: its id,
    what is selected of it, and for each join the linked contracts found,
    each with the contract it is linked to.  A result is a contract with its
    linked contracts under `links`.

    `evaluateRow` gives the row of a contract at hand, `reshape` the result
    of a row, and `evaluate` the result of a contract. -/

namespace LinkedContracts

namespace Query

/-! ## Rows -/

/-- The entry of a linked contract. -/
def entry (select : Selection) (m : LinkMatch) : Json :=
  .object
    [("contract", select.project m.contract),
     ("id", (m.contract.field? "id").getD .null),
     ("parent", .string m.parent)]

/-- The entries of a join. -/
def entries (found : List LinkMatch) (j : Join) (select : Selection) : Json :=
  .array ((found.filter fun m => m.joined == j.name).map (entry select))

/-- The row of a contract, given the linked contracts found. -/
def rowOf (q : Query) (contract : Json) (found : List LinkMatch) : Json :=
  .ofPairs
    (("id", (contract.field? "id").getD .null)
      :: ("contract", q.select.project contract)
      :: q.selectedJoins.map fun (j, select) => (j.name, entries found j select))

/-- The row of a contract, if it meets the filter. -/
def evaluateRow (q : Query) (contract : Json) (source : LinkSource) :
    Except Error (Option Json) :=
  (q.filter.matchContract source q.tables.contracts contract).map
    (·.map (q.rowOf contract))

/-! ## Results -/

/-- Add linked contracts to a contract. -/
def withLinks (contract : Json) (links : List (String × Json)) : Json :=
  match contract with
  | .object fields => .object (Dict.insert fields "links" (.object links))
  | other => other

/-- The items at a key of a row. -/
def itemsAt (row : Json) (key : String) : List Json :=
  ((row.field? key).bind Json.asArray?).getD []

/-- The id of an entry that belongs to a contract. -/
def entryId? (parent : String) (entry : Json) : Option String :=
  if entry.stringField? "parent" = some parent then entry.stringField? "id"
  else none

/-- The entries that belong to a contract with the joins they are of, the
    first one of each id. -/
def entriesOf (row : Json) (parent : String) (joins : List Join) :
    List (Join × String × Json) :=
  let all := joins.flatMap fun j =>
    (itemsAt row j.name).filterMap fun e =>
      (entryId? parent e).map fun id => (j, id, e)
  all.foldl (fun kept (j, id, e) =>
    if kept.any fun (_, seen, _) => seen == id then kept
    else kept ++ [(j, id, e)]) []

mutual

/-- The linked contracts of the contract `parent`, for the links
    selected. -/
def attach : Selection → Dict (List Join) → Json → String →
    List (String × Json)
  | ⟨_, links⟩, joins, row, parent => attachAll links joins row parent

/-- The linked contracts of each link type of a list. -/
def attachAll : List (String × Selection) → Dict (List Join) → Json →
    String → List (String × Json)
  | [], _, _, _ => []
  | (linkType, select) :: rest, joins, row, parent =>
      let found := entriesOf row parent ((Dict.find? joins linkType).getD [])
      (linkType, .array (found.map fun (j, id, e) =>
        let contract := (e.field? "contract").getD .null
        if select.links.isEmpty then contract
        else withLinks contract (attach select j.nested row id)))
        :: attachAll rest joins row parent

end

/-- The result of a row. -/
def reshape (q : Query) (row : Json) : Json :=
  let contract := (row.field? "contract").getD .null
  if q.select.links.isEmpty then contract
  else
    withLinks contract
      (attach q.select q.joins row ((row.stringField? "id").getD ""))

/-- The result of a contract, if it meets the filter. -/
def evaluate (q : Query) (contract : Json) (source : LinkSource) :
    Except Error (Option Json) :=
  (q.evaluateRow contract source).map (·.map q.reshape)

end Query

/-! ## Linked contracts of an image -/

/-- The links of an image: its own are those shown on it, all others come
    from elsewhere. -/
def LinkSource.ofImage (image : Json) (elsewhere : LinkSource) : LinkSource :=
  fun parent linkType =>
    match parent.field? "id", image.field? "id", image.field? "links" with
    | some a, some b, some (.object links) =>
        if Json.same a b then
          .ok (((Dict.find? links linkType).bind Json.asArray?).getD [])
        else elsewhere parent linkType
    | _, _, _ => elsewhere parent linkType

end LinkedContracts
