import LinkedContracts.Error
import LinkedContracts.Sql.Tables

/-! # Settings

    How a kernel is set up.  Every setting has a default, so a document may
    give only some of them, or none. -/

namespace LinkedContracts

/-- The settings of a kernel. -/
structure Settings where
  table : String := "cards"
  linksTable : String := "links"
  /-- The largest page a query may ask for. -/
  maxLimit : Nat := 1000
  /-- The page of queries that do not ask for one. -/
  defaultLimit : Nat := 100
  /-- The file of the store; without one it is kept in memory. -/
  databasePath : Option String := none
  busyTimeoutMs : Nat := 5000
deriving DecidableEq

namespace Settings

/-- Check that the settings make sense. -/
def check (s : Settings) : Except Error Unit :=
  if s.table.isEmpty || s.linksTable.isEmpty then .error .emptyTableName
  else if s.table = s.linksTable then .error (.sharedTable s.table)
  else if s.maxLimit = 0 then .error .maxLimitZero
  else if s.defaultLimit = 0 || s.maxLimit < s.defaultLimit then
    .error (.defaultLimitOutOfRange s.maxLimit)
  else .ok ()

/-- The tables of statements. -/
def tables (s : Settings) : Tables := ⟨s.table, s.linksTable⟩

/-- The page of a query that asks for `requested`. -/
def limit (s : Settings) (requested : Option Nat) : Except Error Nat :=
  let n := requested.getD s.defaultLimit
  if n = 0 || s.maxLimit < n then .error (.limitOutOfRange s.maxLimit n)
  else .ok n

/-! ## Settings as documents -/

/-- A count: an integer that is not negative. -/
def readCount : Json → Option Nat
  | .number (.int i) => if 0 ≤ i then some i.toNat else none
  | _ => none

/-- A path, or null. -/
def readPath : Json → Option (Option String)
  | .null => some none
  | .string s => some (some s)
  | _ => none

/-- A setting, or its default where it is missing. -/
def readField (default : α) (read : Json → Option α) : Option Json → Option α
  | none => some default
  | some j => read j

/-- Read settings, given their fields by name. -/
def ofFields (field : String → Option Json) : Option Settings := do
  let s : Settings := {}
  return {
    table := ← readField s.table Json.asString? (field "table")
    linksTable := ← readField s.linksTable Json.asString? (field "links_table")
    maxLimit := ← readField s.maxLimit readCount (field "max_limit")
    defaultLimit := ← readField s.defaultLimit readCount (field "default_limit")
    databasePath := ← readField none readPath (field "database_path")
    busyTimeoutMs :=
      ← readField s.busyTimeoutMs readCount (field "busy_timeout_ms") }

/-- The order of the settings in an array of them. -/
def fieldOrder : List String :=
  ["table", "links_table", "max_limit", "default_limit", "database_path",
   "busy_timeout_ms"]

/-- Read settings of any form: null, an object, or an array of the fields in
    their order. -/
def read : Json → Option Settings
  | .null => some {}
  | .object fields => ofFields (Dict.find? fields)
  | .array items =>
      if fieldOrder.length < items.length then none
      else ofFields fun key => (fieldOrder.zip items).lookup key
  | _ => none

/-- Read and check settings. -/
def ofJson (j : Json) : Except Error Settings :=
  match read j with
  | none => .error .malformedConfig
  | some s => s.check.map fun _ => s

/-- The document of settings. -/
def toJson (s : Settings) : Json :=
  .object
    [("busy_timeout_ms", .ofNat s.busyTimeoutMs),
     ("database_path", (s.databasePath.map Json.string).getD .null),
     ("default_limit", .ofNat s.defaultLimit),
     ("links_table", .string s.linksTable),
     ("max_limit", .ofNat s.maxLimit),
     ("table", .string s.table)]

end Settings

end LinkedContracts
