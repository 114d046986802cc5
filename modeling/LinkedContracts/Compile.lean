import LinkedContracts.Plan

/-! # Schemas compiled to filters

    Each keyword becomes a filter, and a schema the conjunction of its
    keywords.  Keywords for one type constrain only the values of that type.
    A row is always an object, so on a row the keywords for other types say
    nothing.

    Links are asked of rows only; each becomes a join of the plan. -/

namespace LinkedContracts

variable [TextLibrary]

namespace Schema

/-! ## Keywords without schemas -/

/-- The filter of the types a value may have. -/
def typeFilter (path : ValuePath) (types : List JsonType) : Filter :=
  if path.isRow then
    if JsonType.object ∈ types then .always else .never
  else .typeIs path types

/-- A condition on the values of one type only. -/
def onlyFor (type : JsonType) (path : ValuePath) (filters : List Filter) :
    Filter :=
  let filter := Filter.ofAll filters
  if filter.isAlways then .always
  else if path.isRow then
    if type = .object then filter else .always
  else .disj [.neg (.typeIs path [type]), filter]

/-- The pattern of a format; formats without one ask for nothing. -/
def formatPattern? : String → Option String
  | "uuid" => some ("^[0-9a-fA-F]\x7b8\x7d-[0-9a-fA-F]\x7b4\x7d-"
      ++ "[0-9a-fA-F]\x7b4\x7d-[0-9a-fA-F]\x7b4\x7d-[0-9a-fA-F]\x7b12\x7d$")
  | "email" => some "^[^@[:space:]]+@[^@[:space:]]+\\.[^@[:space:]]+$"
  | "date" => some "^[0-9]\x7b4\x7d-[0-9]\x7b2\x7d-[0-9]\x7b2\x7d$"
  | "date-time" => some ("^[0-9]\x7b4\x7d-[0-9]\x7b2\x7d-[0-9]\x7b2\x7d[Tt ]"
      ++ "[0-9]\x7b2\x7d:[0-9]\x7b2\x7d:[0-9]\x7b2\x7d(\\.[0-9]+)?"
      ++ "([Zz]|[+-][0-9]\x7b2\x7d:?[0-9]\x7b2\x7d)$")
  | "uri" => some "^[a-zA-Z][a-zA-Z0-9+.-]*:[^[:space:]]*$"
  | _ => none

/-- The filter of a pattern. -/
def patternFilter (path : ValuePath) (source : String) (ignoreCase : Bool) :
    Except Error Filter :=
  match Pattern.ofSource? source ignoreCase with
  | some p => .ok (.pattern path p)
  | none => .error .badPattern

/-- The filters of a keyword that may be missing. -/
def forEach (value : Option α) (f : α → Except Error Filter) :
    Except Error (List Filter) :=
  match value with
  | none => .ok []
  | some a => (f a).map ([·])

/-- The filters of the keywords for strings. -/
def stringFilters (kw : Keywords Schema) (path : ValuePath) :
    Except Error (List Filter) := do
  let pattern ← forEach kw.pattern fun p => patternFilter path p false
  let regexp ← forEach kw.regexp fun r =>
    patternFilter path r.pattern r.ignoresCase
  let format ← forEach (kw.format.bind formatPattern?) fun p =>
    patternFilter path p false
  let least := kw.minLength.toList.map (Filter.length path .atLeast)
  let most := kw.maxLength.toList.map (Filter.length path .atMost)
  return pattern ++ regexp ++ format ++ least ++ most

/-- The filters of the keywords for numbers. -/
def numberFilters (kw : Keywords Schema) (path : ValuePath) : List Filter :=
  kw.minimum.toList.map (Filter.bound path .atLeast)
  ++ kw.maximum.toList.map (Filter.bound path .atMost)
  ++ kw.exclusiveMinimum.toList.map (Filter.bound path .greater)
  ++ kw.exclusiveMaximum.toList.map (Filter.bound path .less)

/-- The filters of the number of items. -/
def countFilters (kw : Keywords Schema) (path : ValuePath) : List Filter :=
  kw.minItems.toList.map (Filter.itemCount path .atLeast)
  ++ kw.maxItems.toList.map (Filter.itemCount path .atMost)

/-- The filters of the types and the values that are asked for. -/
def valueFilters (kw : Keywords Schema) (path : ValuePath) : List Filter :=
  kw.types.toList.map (fun ts => typeFilter path ts.toList)
  ++ kw.const.toList.map (Filter.equals path)
  ++ kw.enum.toList.map (Filter.oneOf path)

/-- The filters of the text search. -/
def searchFilters (kw : Keywords Schema) (path : ValuePath) : List Filter :=
  (kw.fullTextSearch.bind FullTextSearch.term?).toList.map
    (Filter.fullText path)

/-- The filters of the properties that have to be there. -/
def requiredFilters (kw : Keywords Schema) (path : ValuePath) : List Filter :=
  (kw.required.getD []).map fun name => .present (path.child name)

/-- The filter of a property: it may be missing. -/
def propertyFilters (path : ValuePath) (filter : Filter) : List Filter :=
  if filter.isAlways then [] else [.disj [.neg (.present path), filter]]

/-- The names of the properties a schema describes. -/
def knownNames (kw : Keywords Schema) : List String :=
  Dict.keys (kw.properties.getD [])

/-! ## Schemas -/

mutual

/-- The filter of a schema on the value at a path. -/
def compile : Schema → ValuePath → Planning Filter
  | .bool true, _ => return .always
  | .bool false, _ => return .never
  | .node kw, path => do
      let strings ← stringFilters kw path
      let items ← compileMembers kw.items path .items .all
      let contains ← compileMembers kw.contains path .items .some
      let properties ← compileProperties kw.properties path
      let others ← compileOthers kw.additionalProperties path (knownNames kw)
      let allOf ← compileBranches kw.allOf path
      let anyOf ← compileBranches kw.anyOf path
      let not ← compileNot kw.not path
      let links ← compileLinks kw.links path
      return .ofAll (valueFilters kw path
        ++ [onlyFor .string path strings,
            onlyFor .number path (numberFilters kw path),
            onlyFor .array path (items ++ contains ++ countFilters kw path),
            onlyFor .object path
              (requiredFilters kw path ++ properties ++ others)]
        ++ searchFilters kw path
        ++ allOf.toList.map Filter.conj
        ++ anyOf.toList.map Filter.disj
        ++ not ++ links)

/-- The filters of a schema for members, which may be missing. -/
def compileMembers (schema : Option Schema) (path : ValuePath)
    (members : Members) (quantifier : Quantifier) : Planning (List Filter) :=
  match schema with
  | none => return []
  | some s => do
      let name ← Plan.freshMember
      let filter ← compile s (.member name)
      return [.each path members quantifier name filter]

/-- The filters of the schema for other properties.  On a row it does not
    constrain; it says what may be seen. -/
def compileOthers (schema : Option Schema) (path : ValuePath)
    (known : List String) : Planning (List Filter) :=
  match schema with
  | none => return []
  | some s =>
      if path.isRow || s.isTrue then return []
      else do
        let name ← Plan.freshMember
        let filter ← compile s (.member name)
        return [.each path (.others known) .all name filter]

/-- The filters of properties, which may be missing. -/
def compileProperties (properties : Option (List (String × Schema)))
    (path : ValuePath) : Planning (List Filter) :=
  match properties with
  | none => return []
  | some fields => compileFields fields path

/-- The filters of the properties of a list. -/
def compileFields : List (String × Schema) → ValuePath →
    Planning (List Filter)
  | [], _ => return []
  | (name, s) :: rest, path => do
      let filter ← compile s (path.child name)
      let filters ← compileFields rest path
      return propertyFilters (path.child name) filter ++ filters

/-- The filters of branches, which may be missing. -/
def compileBranches (branches : Option (List Schema)) (path : ValuePath) :
    Planning (Option (List Filter)) :=
  match branches with
  | none => return none
  | some schemas => do return some (← compileAll schemas path)

/-- The filters of the schemas of a list. -/
def compileAll : List Schema → ValuePath → Planning (List Filter)
  | [], _ => return []
  | s :: rest, path => do
      let filter ← compile s path
      let filters ← compileAll rest path
      return filter :: filters

/-- The filters of a negated schema, which may be missing. -/
def compileNot (schema : Option Schema) (path : ValuePath) :
    Planning (List Filter) :=
  match schema with
  | none => return []
  | some s => do return [.neg (← compile s path)]

/-- The filters of links, which may be missing. -/
def compileLinks (links : Option (List (String × Schema)))
    (path : ValuePath) : Planning (List Filter) :=
  match links with
  | none => return []
  | some fields =>
      if path.isRow then compileLinkTypes fields
      else throw (.misplacedLinks path.keys)

/-- The filters of the link types of a list. -/
def compileLinkTypes : List (String × Schema) → Planning (List Filter)
  | [] => return []
  | (linkType, s) :: rest => do
      let parent := (← get).scope
      let (name, filter) ← Plan.addLink linkType do
        compile s (.row (← get).scope)
      let filters ← compileLinkTypes rest
      return .linked parent linkType name filter :: filters

end

/-- The filter of a schema on the row in the innermost scope. -/
def compileRow (schema : Schema) : Planning Filter := do
  compile schema (.row (← get).scope)

end Schema

end LinkedContracts
