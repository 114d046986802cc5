import LinkedContracts.Compile
import LinkedContracts.Query.Options
import LinkedContracts.Selection

/-! # Queries

    A query is a schema compiled for the tables it reads, with the
    selection of what it returns and its options.  It stands for one
    statement; it can also be evaluated on contracts at hand. -/

namespace LinkedContracts

variable [TextLibrary]

/-- A compiled query. -/
structure Query where
  tables : Tables
  select : Selection
  /-- The filter on the root contract. -/
  filter : Filter
  /-- The joins that return linked contracts, by link type. -/
  joins : Dict (List Join)
  options : QueryOptions

namespace Query

/-- Compile a schema. -/
def compile (tables : Tables) (select : Selection) (schema : Schema)
    (options : QueryOptions) : Except Error Query :=
  let (result, plan) := (Schema.compileRow schema).run (Plan.start tables.contracts)
  match result with
  | .error e => .error e
  | .ok filter =>
      if options.limit = some 0 then .error .limitNotPositive
      else .ok ⟨tables, select, filter, plan.joins, options⟩

/-! ## Joins with their selections -/

/-- What is selected of the contracts of a link type. -/
def linkSelection (select : Selection) (linkType : String) : Selection :=
  (Dict.find? select.links linkType).getD .empty

mutual

/-- A join and all joins below it, parents first, each with what is selected
    of its contracts. -/
def joinSelections : Join → Selection → List (Join × Selection)
  | ⟨linkType, parent, name, filter, hoisted, nested⟩, select =>
      (⟨linkType, parent, name, filter, hoisted, nested⟩, select)
        :: treeSelections nested select

/-- The joins of a list and below, with their selections. -/
def listSelections : List Join → Selection → List (Join × Selection)
  | [], _ => []
  | j :: rest, select => joinSelections j select ++ listSelections rest select

/-- The joins of a tree, with their selections. -/
def treeSelections :
    List (String × List Join) → Selection → List (Join × Selection)
  | [], _ => []
  | (linkType, js) :: rest, select =>
      listSelections js (linkSelection select linkType)
        ++ treeSelections rest select

end

/-- All joins of a query, parents first, with their selections. -/
def selectedJoins (q : Query) : List (Join × Selection) :=
  treeSelections q.joins q.select

end Query

end LinkedContracts
