import LinkedContracts.Error
import LinkedContracts.Schema

/-! # Schemas as documents

    Reading a schema from a document and writing it back.  A keyword of the
    wrong shape is an error; keywords that are not known are descriptions
    and dropped.  Null stands for a keyword that is not set, except after
    `const`, where it is the value asked for. -/

namespace LinkedContracts

namespace Schema

/-! ## Reading -/

/-- A type: its name, or an object with the name as its only key and
    null. -/
def readType : Json → Option JsonType
  | .string s => JsonType.ofName? s
  | .object [(s, .null)] => JsonType.ofName? s
  | _ => none

/-- One type or a list of them. -/
def readTypeSet : Json → Option TypeSet
  | .array items => (items.mapM readType).map .many
  | j => (readType j).map .single

/-- A list of strings. -/
def readStrings : Json → Option (List String)
  | .array items => items.mapM Json.asString?
  | _ => none

/-- A number as a floating-point bound. -/
def readBound : Json → Option Binary64
  | .number n => some n.toDouble
  | _ => none

/-- A length or count: an integer that is not negative. -/
def readCount : Json → Option Nat
  | .number (.int i) => if 0 ≤ i then some i.toNat else none
  | _ => none

/-- Flags, which may be null. -/
def readFlags : Json → Option (Option String)
  | .null => some none
  | .string s => some (some s)
  | _ => none

/-- A regular expression: an object, or an array of pattern and flags. -/
def readRegexp : Json → Option Regexp
  | .object fields => do
      let pattern ← (Dict.find? fields "pattern").bind Json.asString?
      let flags ← readFlags ((Dict.find? fields "flags").getD .null)
      return ⟨pattern, flags⟩
  | .array [.string pattern] => some ⟨pattern, none⟩
  | .array [.string pattern, flags] => (readFlags flags).map (⟨pattern, ·⟩)
  | _ => none

/-- A text search or a mark. -/
def readSearch : Json → Option FullTextSearch
  | .bool b => some (.marker b)
  | .object fields =>
      ((Dict.find? fields "term").bind Json.asString?).map .search
  | _ => none

/-- A keyword whose value may be null for not set. -/
def optionally (read : Json → Option α) : Json → Option (Option α)
  | .null => some none
  | j => (read j).map some

/-- Set a keyword that holds no schemas. -/
def setPlain (kw : Keywords Schema) (key : String) (value : Json) :
    Option (Keywords Schema) :=
  match key with
  | "type" =>
      (optionally readTypeSet value).map fun x => { kw with types := x }
  | "required" =>
      (optionally readStrings value).map fun x => { kw with required := x }
  | "const" => some { kw with const := some value }
  | "enum" =>
      (optionally Json.asArray? value).map fun x => { kw with enum := x }
  | "pattern" =>
      (optionally Json.asString? value).map fun x => { kw with pattern := x }
  | "regexp" =>
      (optionally readRegexp value).map fun x => { kw with regexp := x }
  | "format" =>
      (optionally Json.asString? value).map fun x => { kw with format := x }
  | "minimum" =>
      (optionally readBound value).map fun x => { kw with minimum := x }
  | "maximum" =>
      (optionally readBound value).map fun x => { kw with maximum := x }
  | "exclusiveMinimum" =>
      (optionally readBound value).map
        fun x => { kw with exclusiveMinimum := x }
  | "exclusiveMaximum" =>
      (optionally readBound value).map
        fun x => { kw with exclusiveMaximum := x }
  | "minLength" =>
      (optionally readCount value).map fun x => { kw with minLength := x }
  | "maxLength" =>
      (optionally readCount value).map fun x => { kw with maxLength := x }
  | "minItems" =>
      (optionally readCount value).map fun x => { kw with minItems := x }
  | "maxItems" =>
      (optionally readCount value).map fun x => { kw with maxItems := x }
  | "fullTextSearch" =>
      (optionally readSearch value).map
        fun x => { kw with fullTextSearch := x }
  | _ => some kw

mutual

/-- Read a schema at any depth. -/
def ofJson? : Json → Option Schema
  | .bool b => some (.bool b)
  | .object fields => (readKeywords fields).map .node
  | _ => none

/-- Read the keywords of a schema, the last ones first. -/
def readKeywords : List (String × Json) → Option (Keywords Schema)
  | [] => some {}
  | (key, value) :: rest => do
      let kw ← readKeywords rest
      match key with
      | "properties" =>
          (readSchemaDict value).map fun x => { kw with properties := x }
      | "$$links" =>
          (readSchemaDict value).map fun x => { kw with links := x }
      | "allOf" =>
          (readSchemaList value).map fun x => { kw with allOf := x }
      | "anyOf" =>
          (readSchemaList value).map fun x => { kw with anyOf := x }
      | "not" => (readSchema value).map fun x => { kw with not := x }
      | "additionalProperties" =>
          (readSchema value).map fun x => { kw with additionalProperties := x }
      | "items" => (readSchema value).map fun x => { kw with items := x }
      | "contains" => (readSchema value).map fun x => { kw with contains := x }
      | _ => setPlain kw key value

/-- A schema that may be null for not set. -/
def readSchema : Json → Option (Option Schema)
  | .null => some none
  | .bool b => some (some (.bool b))
  | .object fields => (readKeywords fields).map fun kw => some (.node kw)
  | _ => none

/-- A list of schemas that may be null for not set. -/
def readSchemaList : Json → Option (Option (List Schema))
  | .null => some none
  | .array items => (readAll items).map some
  | _ => none

/-- Every schema of a list. -/
def readAll : List Json → Option (List Schema)
  | [] => some []
  | j :: rest => do
      let s ← ofJson? j
      let ss ← readAll rest
      return s :: ss

/-- Schemas by name, which may be null for not set. -/
def readSchemaDict : Json → Option (Option (List (String × Schema)))
  | .null => some none
  | .object fields => (readFields fields).map some
  | _ => none

/-- Every schema of a list of fields. -/
def readFields : List (String × Json) → Option (List (String × Schema))
  | [] => some []
  | (key, j) :: rest => do
      let s ← ofJson? j
      let ss ← readFields rest
      return (key, s) :: ss

end

/-- Read a schema, or say what is wrong with it. -/
def ofJson (j : Json) : Except Error Schema :=
  match j with
  | .bool _ | .object _ =>
      match ofJson? j with
      | some s => .ok s
      | none => .error .malformedSchema
  | other => .error (.schemaNotObject other)

/-! ## Writing -/

/-- A type set as a document. -/
def typeSetJson : TypeSet → Json
  | .single t => .string t.name
  | .many ts => .array (ts.map fun t => .string t.name)

/-- A regular expression as a document. -/
def regexpJson (r : Regexp) : Json :=
  match r.flags with
  | none => .object [("pattern", .string r.pattern)]
  | some f => .object [("flags", .string f), ("pattern", .string r.pattern)]

/-- A text search as a document. -/
def searchJson : FullTextSearch → Json
  | .marker b => .bool b
  | .search term => .object [("term", .string term)]

/-- A bound as a document. -/
def boundJson (x : Binary64) : Json := .number (.double x)

/-- The field of a keyword that is set. -/
def field (key : String) (value : Option Json) : List (String × Json) :=
  match value with
  | some j => [(key, j)]
  | none => []

mutual

/-- The document of a schema. -/
def toJson : Schema → Json
  | .bool b => .bool b
  | .node kw => .object (keywordsJson kw)

/-- The keywords that are set, keys in ascending order. -/
def keywordsJson (kw : Keywords Schema) : List (String × Json) :=
  field "$$links" (dictJson kw.links)
  ++ field "additionalProperties" (schemaJson kw.additionalProperties)
  ++ field "allOf" (listJson kw.allOf)
  ++ field "anyOf" (listJson kw.anyOf)
  ++ field "const" kw.const
  ++ field "contains" (schemaJson kw.contains)
  ++ field "enum" (kw.enum.map Json.array)
  ++ field "exclusiveMaximum" (kw.exclusiveMaximum.map boundJson)
  ++ field "exclusiveMinimum" (kw.exclusiveMinimum.map boundJson)
  ++ field "format" (kw.format.map Json.string)
  ++ field "fullTextSearch" (kw.fullTextSearch.map searchJson)
  ++ field "items" (schemaJson kw.items)
  ++ field "maxItems" (kw.maxItems.map Json.ofNat)
  ++ field "maxLength" (kw.maxLength.map Json.ofNat)
  ++ field "maximum" (kw.maximum.map boundJson)
  ++ field "minItems" (kw.minItems.map Json.ofNat)
  ++ field "minLength" (kw.minLength.map Json.ofNat)
  ++ field "minimum" (kw.minimum.map boundJson)
  ++ field "not" (schemaJson kw.not)
  ++ field "pattern" (kw.pattern.map Json.string)
  ++ field "properties" (dictJson kw.properties)
  ++ field "regexp" (kw.regexp.map regexpJson)
  ++ field "required" (kw.required.map Json.ofStrings)
  ++ field "type" (kw.types.map typeSetJson)

/-- The document of a schema that may be missing. -/
def schemaJson : Option Schema → Option Json
  | none => none
  | some s => some s.toJson

/-- The document of a list of schemas that may be missing. -/
def listJson : Option (List Schema) → Option Json
  | none => none
  | some ss => some (.array (allJson ss))

/-- The documents of schemas. -/
def allJson : List Schema → List Json
  | [] => []
  | s :: rest => s.toJson :: allJson rest

/-- The document of schemas by name that may be missing. -/
def dictJson : Option (List (String × Schema)) → Option Json
  | none => none
  | some ss => some (.object (fieldsJson ss))

/-- The documents of schemas by name. -/
def fieldsJson : List (String × Schema) → List (String × Json)
  | [] => []
  | (key, s) :: rest => (key, s.toJson) :: fieldsJson rest

end

end Schema

end LinkedContracts
