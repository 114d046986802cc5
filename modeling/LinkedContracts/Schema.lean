import LinkedContracts.Json

/-! # Schemas

    A schema is a predicate on contracts and the values inside them,
    written as a set of keywords.  A keyword that is not set asks for
    nothing.  The keyword `links` asks for contracts linked to the one at
    hand, each link type with a schema of its own. -/

namespace LinkedContracts

/-- The types of values. -/
inductive JsonType where
  | null
  | boolean
  | object
  | array
  | number
  | integer
  | string
deriving DecidableEq

namespace JsonType

/-- The name of a type. -/
def name : JsonType → String
  | null => "null"
  | boolean => "boolean"
  | object => "object"
  | array => "array"
  | number => "number"
  | integer => "integer"
  | string => "string"

/-- All types. -/
def all : List JsonType :=
  [null, boolean, object, array, number, integer, string]

/-- The type of a name. -/
def ofName? (s : String) : Option JsonType := all.find? fun t => t.name = s

/-- Whether a value has the type.  The whole numbers are the integers,
    however they are written. -/
def holds : JsonType → Json → Bool
  | null, .null => true
  | boolean, .bool _ => true
  | object, .object _ => true
  | array, .array _ => true
  | number, .number _ => true
  | integer, .number n => n.isWhole
  | string, .string _ => true
  | _, _ => false

theorem ofName?_name (t : JsonType) : ofName? t.name = some t := by
  cases t <;> decide

end JsonType

/-- What the `type` keyword lists: one type by itself, or a list. -/
inductive TypeSet where
  | single (type : JsonType)
  | many (types : List JsonType)

/-- The types of a type set. -/
def TypeSet.toList : TypeSet → List JsonType
  | single t => [t]
  | many ts => ts

/-- A regular expression with its flags. -/
structure Regexp where
  pattern : String
  flags : Option String

/-- Whether the flags ask to ignore letter case. -/
def Regexp.ignoresCase (r : Regexp) : Bool :=
  match r.flags with
  | some flags => 'i' ∈ flags.toList
  | none => false

/-- A text search, or a mere mark that a property is searchable. -/
inductive FullTextSearch where
  | marker (searchable : Bool)
  | search (term : String)

/-- The term that is searched for. -/
def FullTextSearch.term? : FullTextSearch → Option String
  | marker _ => none
  | search term => some term

/-- The keywords of a schema, over the type of schemas. -/
structure Keywords (σ : Type) where
  types : Option TypeSet := none
  properties : Option (List (String × σ)) := none
  required : Option (List String) := none
  additionalProperties : Option σ := none
  allOf : Option (List σ) := none
  anyOf : Option (List σ) := none
  not : Option σ := none
  const : Option Json := none
  enum : Option (List Json) := none
  pattern : Option String := none
  regexp : Option Regexp := none
  format : Option String := none
  minimum : Option Binary64 := none
  maximum : Option Binary64 := none
  exclusiveMinimum : Option Binary64 := none
  exclusiveMaximum : Option Binary64 := none
  minLength : Option Nat := none
  maxLength : Option Nat := none
  items : Option σ := none
  contains : Option σ := none
  minItems : Option Nat := none
  maxItems : Option Nat := none
  fullTextSearch : Option FullTextSearch := none
  links : Option (List (String × σ)) := none

/-- A schema: everything, nothing, or what its keywords ask for. -/
inductive Schema where
  | bool (accepts : Bool)
  | node (keywords : Keywords Schema)

namespace Schema

instance : Inhabited Schema := ⟨.bool true⟩

/-- The conjunction of schemas. -/
def conj (branches : List Schema) : Schema := .node { allOf := some branches }

/-- The disjunction of schemas. -/
def disj (branches : List Schema) : Schema := .node { anyOf := some branches }

/-- Whether the schema is the one that accepts nothing. -/
def isFalse : Schema → Bool
  | .bool false => true
  | _ => false

/-- Whether the schema is the one that accepts everything. -/
def isTrue : Schema → Bool
  | .bool true => true
  | _ => false

theorem eq_of_isFalse {s : Schema} (h : s.isFalse = true) : s = .bool false := by
  cases s with
  | bool accepts => cases accepts <;> trivial
  | node kw => cases h

theorem eq_of_isTrue {s : Schema} (h : s.isTrue = true) : s = .bool true := by
  cases s with
  | bool accepts => cases accepts <;> trivial
  | node kw => cases h

/-- Whether the schema is made of keywords. -/
def isNode : Schema → Bool
  | .node _ => true
  | .bool _ => false

end Schema

end LinkedContracts
