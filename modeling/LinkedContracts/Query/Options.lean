import LinkedContracts.Error

/-! # Query options

    How many results a query returns, how many it skips, and what they are
    ordered by. -/

namespace LinkedContracts

/-- Paging and order of a query. -/
structure QueryOptions where
  limit : Option Nat := none
  skip : Option Nat := none
  /-- The keys that lead to the value to order by. -/
  sortBy : Option (List String) := none
  descending : Bool := false
deriving DecidableEq

namespace QueryOptions

/-- The keys to order by, unless it is the default order. -/
def sortKeys? (o : QueryOptions) : Option (List String) :=
  match o.sortBy with
  | some [] => none
  | other => other

/-- Whether the order is by version. -/
def byVersion (keys : List String) : Bool := keys == ["version"]

/-- A count: an integer that is not negative, or null. -/
def readCount : Json → Option (Option Nat)
  | .null => some none
  | .number (.int i) => if 0 ≤ i then some (some i.toNat) else none
  | _ => none

/-- Keys, or null. -/
def readKeys : Json → Option (Option (List String))
  | .null => some none
  | .array items => (items.mapM Json.asString?).map some
  | _ => none

/-- The name of a direction. -/
def readDirectionName : String → Option Bool
  | "asc" => some false
  | "desc" => some true
  | _ => none

/-- A direction: its name, or an object with the name as its only key and
    null. -/
def readDirection : Json → Option Bool
  | .string s => readDirectionName s
  | .object [(s, .null)] => readDirectionName s
  | _ => none

/-- A field, or its default where it is missing. -/
def readField (default : α) (read : Json → Option α) : Option Json → Option α
  | none => some default
  | some j => read j

/-- Read options, given their fields by name. -/
def ofFields (field : String → Option Json) : Option QueryOptions := do
  return {
    limit := ← readField none readCount (field "limit")
    skip := ← readField none readCount (field "skip")
    sortBy := ← readField none readKeys (field "sortBy")
    descending := ← readField false readDirection (field "sortDir") }

/-- The order of the options in an array of them. -/
def fieldOrder : List String := ["limit", "skip", "sortBy", "sortDir"]

/-- Read options: an object, or an array of the fields in their order. -/
def ofJson : Json → Except Error QueryOptions
  | .null => .ok {}
  | .object fields => read (Dict.find? fields)
  | .array items =>
      if fieldOrder.length < items.length then .error .malformedJson
      else read fun key => (fieldOrder.zip items).lookup key
  | _ => .error .malformedJson
where
  read (field : String → Option Json) : Except Error QueryOptions :=
    match ofFields field with
    | some o => .ok o
    | none => .error .malformedJson

end QueryOptions

end LinkedContracts
