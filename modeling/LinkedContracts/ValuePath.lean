import LinkedContracts.Json
import LinkedContracts.Sql.Quoted

/-! # Value paths

    The place of a value: a scope, which is a row of the contracts table or
    a member of an array or object at hand, and the keys that lead from
    there to the value.

    `sql` and `textSql` name the value in a statement; `resolve` finds it
    in what is bound to the scope, and is `none` where a statement would
    see no value. -/

namespace LinkedContracts

/-- What a path starts from, with the name it is bound to. -/
inductive Scope where
  | row (name : String)
  | member (name : String)
deriving DecidableEq

/-- The name a scope is bound to. -/
def Scope.name : Scope → String
  | row name => name
  | member name => name

/-- The place of a value. -/
structure ValuePath where
  scope : Scope
  keys : List String
deriving DecidableEq

namespace ValuePath

/-- The columns of the contracts table. -/
def columns : List String :=
  ["id", "slug", "type", "version", "active", "name", "tags", "markers",
   "requires", "capabilities", "linked_at", "created_at", "updated_at",
   "data"]

/-- A whole row. -/
def row (name : String) : ValuePath := ⟨.row name, []⟩

/-- A whole member. -/
def member (name : String) : ValuePath := ⟨.member name, []⟩

/-- The value at a key. -/
def child (p : ValuePath) (key : String) : ValuePath :=
  { p with keys := p.keys ++ [key] }

/-- Whether the path is a whole row. -/
def isRow (p : ValuePath) : Bool :=
  match p.scope, p.keys with
  | .row _, [] => true
  | _, _ => false

/-- An expression followed by keys. -/
def withKeys (base : String) (keys : List String) : String :=
  keys.foldl (fun expr key => expr ++ " -> " ++ Sql.literal key) base

/-- The value as an expression.  A row has its columns and nothing else. -/
def sql (p : ValuePath) : String :=
  match p.scope, p.keys with
  | .row name, [] => "to_jsonb(" ++ Sql.ident name ++ ")"
  | .row name, column :: rest =>
      let ref := Sql.ident name ++ "." ++ Sql.ident column
      if column ∉ columns then "NULL::jsonb"
      else if rest.isEmpty then
        "coalesce(to_jsonb(" ++ ref ++ "), 'null'::jsonb)"
      else if column = "data" then withKeys ref rest
      else withKeys ("to_jsonb(" ++ ref ++ ")") rest
  | .member name, keys => withKeys (Sql.ident name ++ ".\"value\"") keys

/-- The value as an expression for its text. -/
def textSql (p : ValuePath) : String := "(" ++ p.sql ++ " #>> '\x7b\x7d')"

/-- The value that keys lead to. -/
def descend : Json → List String → Option Json
  | value, [] => some value
  | value, key :: rest => (value.field? key).bind fun v => descend v rest

/-- The value at the path, given what is bound to its scope.  A row has
    null in the columns it does not set. -/
def resolve (p : ValuePath) (bound : Json) : Option Json :=
  match p.scope, p.keys with
  | .row _, column :: rest =>
      if column ∈ columns then
        descend ((bound.field? column).getD .null) rest
      else none
  | _, keys => descend bound keys

end ValuePath

end LinkedContracts
