import LinkedContracts.Error
import LinkedContracts.Filter
import LinkedContracts.Sql.Tables

/-! # Join plans

    A link type that a schema asks for becomes a pair of joins: the links
    table, then the contracts table.  The joins form a tree, since the
    linked contract may be asked for links of its own.  Several joins of one
    link type may start from the same contract; they are numbered.

    A plan is the tree under construction: the scope that paths start from,
    the way from the root to the join at hand, the joins so far, and the
    filters that had to leave their join.  The name of a join spells out the
    way to it, so that no two joins share a name.

    Planning may fail; the plan made up to then remains. -/

namespace LinkedContracts

/-- A join along a link type. -/
structure Join where
  linkType : String
  /-- The scope the link starts from. -/
  parent : String
  /-- The name of the joined contract. -/
  name : String
  /-- The filter on the joined contract. -/
  filter : Filter
  /-- Whether the filter refers to joins made later, so that it cannot stand
      in the condition of this one. -/
  hoisted : Bool
  /-- The joins that start from the joined contract, by link type. -/
  nested : List (String × List Join)

namespace Join

/-- The name of the links table joined along. -/
def links (j : Join) : String := Sql.linksName j.name

/-- What the condition of the join asks of the contract. -/
def condition (j : Join) : Filter := if j.hoisted then .always else j.filter

/-- The joins of a link type below the join that a way leads to. -/
def under : Dict (List Join) → List (String × Nat) → String → List Join
  | joins, [], linkType => (Dict.find? joins linkType).getD []
  | joins, (t, i) :: rest, linkType =>
      match ((Dict.find? joins t).getD [])[i]? with
      | some j => under j.nested rest linkType
      | none => []

/-- Change the joins of a link type below the join that a way leads to. -/
def updateUnder (change : List Join → List Join) :
    Dict (List Join) → List (String × Nat) → String → Dict (List Join)
  | joins, [], linkType =>
      Dict.insert joins linkType (change ((Dict.find? joins linkType).getD []))
  | joins, (t, i) :: rest, linkType =>
      match Dict.find? joins t with
      | some js => Dict.insert joins t (js.modify i fun j =>
          { j with nested := updateUnder change j.nested rest linkType })
      | none => joins

/-- A link type inside a name: slashes, which part the steps of a way, are
    escaped. -/
def escape (linkType : String) : String :=
  replaceIn '/' "\\/" (replaceIn '\\' "\\\\" linkType)

/-- The name of the join that a way leads to. -/
def nameOf (way : List (String × Nat)) : String :=
  "join@/" ++ joinWith "/" (way.map fun (t, i) => escape t ++ "." ++ toString i)

end Join

/-- The joins of a statement under construction. -/
structure Plan where
  /-- The scopes in force, the innermost first. -/
  scopes : List String
  /-- The way to the join at hand. -/
  way : List (String × Nat) := []
  joins : Dict (List Join) := []
  joinCount : Nat := 0
  /-- Filters that had to leave their join. -/
  hoisted : List Filter := []
  /-- How many names were given to members. -/
  memberCount : Nat := 0

/-- A step of planning; it may fail. -/
abbrev Planning (α : Type) := ExceptT Error (StateM Plan) α

namespace Plan

/-- The plan of a statement on a table. -/
def start (table : String) : Plan := { scopes := [table] }

/-- The innermost scope. -/
def scope (p : Plan) : String := p.scopes.head?.getD ""

/-- Enter a scope. -/
def push (p : Plan) (scope : String) : Plan :=
  { p with scopes := scope :: p.scopes }

/-- Leave a scope.  The root is never left. -/
def pop (p : Plan) : Plan :=
  match p.scopes with
  | _ :: s :: rest => { p with scopes := s :: rest }
  | _ => p

/-- All filters that had to leave their join. -/
def hoistedFilter (p : Plan) : Filter := .ofAll p.hoisted

/-- A new name for members. -/
def freshMember : Planning String := do
  let p ← get
  set { p with memberCount := p.memberCount + 1 }
  return "el" ++ toString p.memberCount

/-- Plan inside a scope and leave it again, whatever comes of it. -/
def within (scope : String) (step : Planning α) : Planning α :=
  fun p =>
    let (result, p) := step (p.push scope)
    (result, p.pop)

/-- Enter a new join of a link type. -/
def enter (p : Plan) (linkType : String) : Plan :=
  let index := (Join.under p.joins p.way linkType).length
  let way := p.way ++ [(linkType, index)]
  { p with
    way := way
    joins := Join.updateUnder
      (fun js => js ++
        [⟨linkType, p.scope, Join.nameOf way, .always, false, []⟩])
      p.joins p.way linkType }

/-- Leave a join. -/
def leave (p : Plan) : Plan := { p with way := p.way.dropLast }

/-- Settle the filter of a join.  It is hoisted if joins were made since. -/
def settle (p : Plan) (linkType : String) (index : Nat) (hoisted : Bool)
    (filter : Filter) : Plan :=
  { p with
    hoisted := if hoisted then p.hoisted ++ [filter] else p.hoisted
    joins := Join.updateUnder
      (fun js => js.modify index fun j =>
        { j with filter := filter, hoisted := hoisted })
      p.joins p.way linkType
    joinCount := p.joinCount + 1 }

/-- Join along a link type from the innermost scope; `step` plans the filter
    on the joined contract.  The name of the join and the filter result. -/
def addLink (linkType : String) (step : Planning Filter) :
    Planning (String × Filter) :=
  fun p =>
    let index := (Join.under p.joins p.way linkType).length
    let entered := p.enter linkType
    let name := Join.nameOf entered.way
    let (result, after) := within name step entered
    let left := after.leave
    match result with
    | .error e => (.error e, left)
    | .ok filter =>
        let hoisted := p.joinCount < left.joinCount
        (.ok (name, filter), left.settle linkType index hoisted filter)

end Plan

end LinkedContracts
