import LinkedContracts.Schema

/-! # Masks

    A mask is a schema that every contract visible to someone satisfies.  A
    property is forbidden if no value of it can get past the mask.

    `merge` puts a mask on a query: what the mask forbids is pruned from
    the query, so that it is neither selected nor tested, and linked
    contracts are masked the same way.  `redact` removes from a contract
    every property the mask forbids. -/

namespace LinkedContracts

namespace Mask

/-! ## What a mask forbids -/

/-- What a schema asks of a property: by name, or as one of the others. -/
def ownPart (kw : Keywords Schema) (key : String) : Option Schema :=
  match (kw.properties.bind fun fields => Dict.find? fields key) with
  | some s => some s
  | none => kw.additionalProperties

mutual

/-- Whether no value of a property gets past a mask. -/
def forbids : Schema → String → Bool
  | .bool accepts, _ => !accepts
  | .node kw, key =>
      (ownPart kw key).any Schema.isFalse
        || anyForbids kw.allOf key || allForbid kw.anyOf key

/-- Whether one of the branches forbids a property. -/
def anyForbids : Option (List Schema) → String → Bool
  | none, _ => false
  | some branches, key => someForbids branches key

/-- Whether one schema of a list forbids a property. -/
def someForbids : List Schema → String → Bool
  | [], _ => false
  | s :: rest, key => forbids s key || someForbids rest key

/-- Whether there are branches and each forbids a property. -/
def allForbid : Option (List Schema) → String → Bool
  | none, _ => false
  | some branches, key => !branches.isEmpty && everyForbids branches key

/-- Whether each schema of a list forbids a property. -/
def everyForbids : List Schema → String → Bool
  | [], _ => true
  | s :: rest, key => forbids s key && everyForbids rest key

end

/-- Parts that all have to hold, as one schema. -/
def together : List Schema → Schema
  | [] => .bool true
  | [s] => s
  | ss => .conj ss

mutual

/-- The part of a mask that is about the value of a property. -/
def property : Schema → String → Schema
  | .bool accepts, _ => .bool accepts
  | .node kw, key =>
      together ((ownPart kw key).toList
        ++ conjuncts kw.allOf key ++ disjuncts kw.anyOf key)

/-- The parts of branches that all have to hold. -/
def conjuncts : Option (List Schema) → String → List Schema
  | none, _ => []
  | some branches, key => properties branches key

/-- The part of branches of which one has to hold. -/
def disjuncts : Option (List Schema) → String → List Schema
  | none, _ => []
  | some [], _ => []
  | some branches, key => [.disj (properties branches key)]

/-- The parts of the schemas of a list. -/
def properties : List Schema → String → List Schema
  | [], _ => []
  | s :: rest, key => property s key :: properties rest key

end

/-! ## Masked queries -/

mutual

/-- A query without the properties a mask forbids. -/
def prune : Schema → Schema → Schema
  | .bool accepts, _ => .bool accepts
  | .node kw, mask => .node { kw with
      properties := pruneProperties kw.properties mask
      required := kw.required.map fun names =>
        names.filter fun key => !forbids mask key
      allOf := pruneBranches kw.allOf mask
      anyOf := pruneBranches kw.anyOf mask
      not := pruneOne kw.not mask
      links := pruneLinks kw.links mask }
termination_by structural s => s

/-- The properties a mask lets through. -/
def pruneProperties :
    Option (List (String × Schema)) → Schema → Option (List (String × Schema))
  | none, _ => none
  | some fields, mask => some (pruneFields fields mask)
termination_by structural s => s

/-- The properties of a list a mask lets through. -/
def pruneFields : List (String × Schema) → Schema → List (String × Schema)
  | [], _ => []
  | (key, s) :: rest, mask =>
      if forbids mask key then pruneFields rest mask
      else (key, prune s (property mask key)) :: pruneFields rest mask
termination_by structural s => s

/-- Branches, pruned. -/
def pruneBranches : Option (List Schema) → Schema → Option (List Schema)
  | none, _ => none
  | some branches, mask => some (pruneAll branches mask)
termination_by structural s => s

/-- The schemas of a list, pruned. -/
def pruneAll : List Schema → Schema → List Schema
  | [], _ => []
  | s :: rest, mask => prune s mask :: pruneAll rest mask
termination_by structural s => s

/-- A schema that may be missing, pruned. -/
def pruneOne : Option Schema → Schema → Option Schema
  | none, _ => none
  | some s, mask => some (prune s mask)
termination_by structural s => s

/-- Links, masked. -/
def pruneLinks :
    Option (List (String × Schema)) → Schema → Option (List (String × Schema))
  | none, _ => none
  | some fields, mask => some (pruneLinkTypes fields mask)
termination_by structural s => s

/-- The links of a list, masked. -/
def pruneLinkTypes : List (String × Schema) → Schema → List (String × Schema)
  | [], _ => []
  | (linkType, s) :: rest, mask =>
      (linkType, .conj [mask, prune s mask]) :: pruneLinkTypes rest mask
termination_by structural s => s

end

/-- A query behind a mask. -/
def merge (mask query : Schema) : Schema := .conj [mask, prune query mask]

/-! ## Redacted contracts -/

mutual

/-- A value without the properties a mask forbids. -/
def redactValue : Json → Schema → Json
  | .object fields, mask => .object (redactFields fields mask)
  | other, _ => other

/-- The fields a mask lets through. -/
def redactFields : List (String × Json) → Schema → List (String × Json)
  | [], _ => []
  | (key, v) :: rest, mask =>
      if forbids mask key then redactFields rest mask
      else (key, redactValue v (property mask key)) :: redactFields rest mask

end

mutual

/-- A contract without the properties a mask forbids; the contracts shown
    with it are redacted by themselves. -/
def redact : Json → Schema → Json
  | .object fields, mask => .object (redactRow fields mask)
  | other, _ => other

/-- The fields of a contract a mask lets through. -/
def redactRow : List (String × Json) → Schema → List (String × Json)
  | [], _ => []
  | (key, v) :: rest, mask =>
      if key = "links" then (key, redactLinks v mask) :: redactRow rest mask
      else if forbids mask key then redactRow rest mask
      else (key, redactValue v (property mask key)) :: redactRow rest mask

/-- Links with their contracts redacted. -/
def redactLinks : Json → Schema → Json
  | .object links, mask => .object (redactLinkTypes links mask)
  | other, _ => other

/-- The links of a list with their contracts redacted. -/
def redactLinkTypes : List (String × Json) → Schema → List (String × Json)
  | [], _ => []
  | (linkType, .array contracts) :: rest, mask =>
      (linkType, .array (redactAll contracts mask))
        :: redactLinkTypes rest mask
  | other :: rest, mask => other :: redactLinkTypes rest mask

/-- The contracts of a list, redacted. -/
def redactAll : List Json → Schema → List Json
  | [], _ => []
  | c :: rest, mask => redact c mask :: redactAll rest mask

end

/-! ## Markers -/

/-- The mask of markers: each marker of a contract has to be a known one. -/
def ofMarkers (markers : List String) : Schema :=
  let item := Schema.node
    { types := some (.single .string), enum := some (markers.map .string) }
  let markersOf := Schema.node
    { types := some (.single .array), items := some item }
  .node { properties := some [("markers", markersOf)] }

end Mask

end LinkedContracts
