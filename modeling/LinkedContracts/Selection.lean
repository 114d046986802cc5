import LinkedContracts.Schema

/-! # Selections

    A selection is the shape of what a query returns: a tree of property
    names and link types.  A selection without properties keeps a whole
    value.

    `ofSchema` is the selection a schema implies: everything it names, in
    whatever branch.  `merge` is union and `rectify` intersection of
    trees. -/

namespace LinkedContracts

/-- The parts of a value that a query returns. -/
structure Selection where
  properties : List (String × Selection) := []
  links : List (String × Selection) := []

namespace Selection

/-- Nothing in particular. -/
def empty : Selection := {}

instance : Inhabited Selection := ⟨empty⟩

/-- Whether nothing in particular is selected. -/
def isEmpty (s : Selection) : Bool := s.properties.isEmpty && s.links.isEmpty

mutual

/-- The union of two selections. -/
def merge (base : Selection) : Selection → Selection
  | ⟨properties, links⟩ =>
      ⟨mergeAll base.properties properties, mergeAll base.links links⟩

/-- Merge named selections into a dictionary of them. -/
def mergeAll (base : Dict Selection) :
    List (String × Selection) → Dict Selection
  | [] => base
  | (key, s) :: rest =>
      mergeAll (Dict.insert base key
        (merge ((Dict.find? base key).getD empty) s)) rest

end

mutual

/-- The part of a selection that is also in `allowed`. -/
def rectify : Selection → Selection → Selection
  | ⟨properties, links⟩, allowed =>
      ⟨rectifyAll properties allowed.properties,
       rectifyAll links allowed.links⟩

/-- The part of a dictionary of selections that is also in `allowed`. -/
def rectifyAll : List (String × Selection) → Dict Selection → Dict Selection
  | [], _ => []
  | (key, s) :: rest, allowed =>
      match Dict.find? allowed key with
      | some a => (key, rectify s a) :: rectifyAll rest allowed
      | none => rectifyAll rest allowed

end

/-- Select names, with everything below them. -/
def addNames (s : Selection) (names : List String) : Selection :=
  { s with properties :=
      mergeAll s.properties (names.map fun name => (name, empty)) }

/-- Select part of a property.  Links found below it are links of the
    contract. -/
def addProperty (s : Selection) (name : String) (sub : Selection) :
    Selection :=
  ⟨mergeAll s.properties [(name, ⟨sub.properties, []⟩)],
   mergeAll s.links sub.links⟩

mutual

/-- Everything a schema names. -/
def ofSchema : Schema → Selection
  | .bool _ => empty
  | .node kw =>
      let own : Selection := ⟨[], ofLinks kw.links⟩
      let own := own.addNames (kw.required.getD [])
      let own := ofProperties own kw.properties
      let own := ofBranches own kw.allOf
      let own := ofBranches own kw.anyOf
      ofNot own kw.not

/-- The link types a schema names. -/
def ofLinks : Option (List (String × Schema)) → Dict Selection
  | none => []
  | some links => ofDict links

/-- Selections of named schemas. -/
def ofDict : List (String × Schema) → Dict Selection
  | [] => []
  | (key, s) :: rest => (key, ofSchema s) :: ofDict rest

/-- Add the properties a schema describes. -/
def ofProperties (own : Selection) :
    Option (List (String × Schema)) → Selection
  | none => own
  | some properties => ofFields own properties

/-- Add described properties one by one. -/
def ofFields (own : Selection) : List (String × Schema) → Selection
  | [] => own
  | (name, s) :: rest => ofFields (own.addProperty name (ofSchema s)) rest

/-- Add what branches name. -/
def ofBranches (own : Selection) : Option (List Schema) → Selection
  | none => own
  | some branches => ofAll own branches

/-- Add what schemas name, one by one. -/
def ofAll (own : Selection) : List Schema → Selection
  | [] => own
  | s :: rest => ofAll (own.merge (ofSchema s)) rest

/-- Add what a negated schema names. -/
def ofNot (own : Selection) : Option Schema → Selection
  | none => own
  | some s => own.merge (ofSchema s)

end

mutual

/-- The selected part of a value.  Properties the value does not have are
    left out; links are not touched. -/
def project : Selection → Json → Json
  | ⟨[], _⟩, value => value
  | ⟨p :: ps, _⟩, .object fields => .object (projectFields (p :: ps) fields)
  | _, value => value

/-- The selected fields of an object. -/
def projectFields :
    List (String × Selection) → Dict Json → List (String × Json)
  | [], _ => []
  | (key, s) :: rest, fields =>
      match Dict.find? fields key with
      | some v => (key, project s v) :: projectFields rest fields
      | none => projectFields rest fields

end

/-! ## Selections as documents -/

mutual

/-- The document of a selection; empty parts are left out. -/
def toJson : Selection → Json
  | ⟨properties, links⟩ =>
      .object (part "links" (dictJson links)
        ++ part "properties" (dictJson properties))

/-- The documents of named selections. -/
def dictJson : List (String × Selection) → List (String × Json)
  | [] => []
  | (key, s) :: rest => (key, toJson s) :: dictJson rest

/-- A part that is left out when empty. -/
def part (key : String) : List (String × Json) → List (String × Json)
  | [] => []
  | fields => [(key, .object fields)]

end

mutual

/-- Read a selection: an object, or an array of properties and links. -/
def ofJson? : Json → Option Selection
  | .object fields => readParts fields
  | .array [] => some empty
  | .array [p] => (readDict p).map fun ps => ⟨ps, []⟩
  | .array [p, l] => do return ⟨← readDict p, ← readDict l⟩
  | _ => none

/-- Read the parts of a selection. -/
def readParts : List (String × Json) → Option Selection
  | [] => some empty
  | (key, value) :: rest => do
      let s ← readParts rest
      match key with
      | "properties" => (readDict value).map fun ps => { s with properties := ps }
      | "links" => (readDict value).map fun ls => { s with links := ls }
      | _ => some s

/-- Read named selections. -/
def readDict : Json → Option (List (String × Selection))
  | .object fields => readFields fields
  | _ => none

/-- Read the selections of a list of fields. -/
def readFields : List (String × Json) → Option (List (String × Selection))
  | [] => some []
  | (key, value) :: rest => do
      let s ← ofJson? value
      let ss ← readFields rest
      return (key, s) :: ss

end

end Selection

end LinkedContracts
