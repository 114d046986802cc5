import LinkedContracts.Compile
import LinkedContracts.Filter.Eval

/-! # Schemas read directly

    What a schema asks for, read off its keywords without compiling it.
    All keywords of a schema have to hold.

    A schema is read of a whole contract or of a value inside one.  A
    contract is an object whatever it holds: it has the columns of its
    table, null where it does not set them, and nothing else, and its links
    can be asked for.  A value has the properties it holds, and the keywords
    for one type constrain only the values of that type. -/

namespace LinkedContracts

/-- What a schema is read of. -/
inductive Place where
  /-- A whole contract. -/
  | contract
  /-- A value inside a contract. -/
  | value
deriving DecidableEq

namespace Place

/-- Whether what is read is of a type. -/
def hasType : Place → Json → JsonType → Bool
  | contract, _, t => t == .object
  | value, v, t => t.holds v

/-- The property of a name, if it is present. -/
def property? : Place → Json → String → Option Json
  | contract, c, name =>
      if name ∈ ValuePath.columns then some ((c.field? name).getD .null)
      else none
  | value, v, name => v.field? name

/-- The items of an array. -/
def items? : Place → Json → Option (List Json)
  | value, .array items => some items
  | _, _ => none

/-- The values of an object at other keys than the known ones. -/
def others? (known : List String) : Place → Json → Option (List Json)
  | value, .object fields =>
      some ((fields.filter fun (key, _) => key ∉ known).map (·.2))
  | _, _ => none

end Place

namespace Keywords

variable [TextLibrary]

/-- Whether a text matches a pattern.  A pattern that is none matches
    nothing. -/
def matchesPattern (source : String) (ignoreCase : Bool) (s : String) : Bool :=
  (Pattern.ofSource? source ignoreCase).any (·.matchesIn s)

/-- What the keywords for strings ask of a string. -/
def stringMeets (kw : Keywords Schema) (s : String) : Bool :=
  kw.pattern.all (matchesPattern · false s)
    && kw.regexp.all (fun r => matchesPattern r.pattern r.ignoresCase s)
    && (kw.format.bind Schema.formatPattern?).all (matchesPattern · false s)
    && kw.minLength.all (fun n => n ≤ s.length)
    && kw.maxLength.all (fun n => s.length ≤ n)

/-- What the keywords for numbers ask of a number. -/
def numberMeets (kw : Keywords Schema) (n : Number) : Bool :=
  kw.minimum.all (fun b => b.position ≤ n.toDouble.position)
    && kw.maximum.all (fun b => n.toDouble.position ≤ b.position)
    && kw.exclusiveMinimum.all (fun b => b.position < n.toDouble.position)
    && kw.exclusiveMaximum.all (fun b => n.toDouble.position < b.position)

/-- What the keywords for strings and numbers ask.  They say nothing of a
    contract, nor of values of other types. -/
def scalarMeets (kw : Keywords Schema) : Place → Json → Bool
  | .value, .string s => kw.stringMeets s
  | .value, .number n => kw.numberMeets n
  | _, _ => true

/-- What the keywords that hold no schemas ask. -/
def plainMeets (kw : Keywords Schema) (place : Place) (v : Json) : Bool :=
  kw.types.all (fun ts => ts.toList.any (place.hasType v))
    && kw.const.all v.equal
    && kw.enum.all (fun values => values.any v.equal)
    && kw.scalarMeets place v
    && (place.items? v).all (fun items =>
      kw.minItems.all (fun n => n ≤ items.length)
        && kw.maxItems.all (fun n => items.length ≤ n))
    && (!place.hasType v .object || (kw.required.getD []).all fun name =>
      (place.property? v name).isSome)
    && (kw.fullTextSearch.bind FullTextSearch.term?).all
      (Text.matchesTerm v.asText)

end Keywords

namespace Schema

mutual

/-- Whether a contract or value meets a schema, given the contracts linked
    to a contract under a link type. -/
def meets [TextLibrary] (links : Json → String → List Json) : Schema → Place → Json → Bool
  | .bool accepts, _, _ => accepts
  | .node kw, place, v =>
      kw.plainMeets place v
        && eachMeets links kw.items (place.items? v)
        && someMeets links kw.contains (place.items? v)
        && propertiesMeet links kw.properties place v
        && eachMeets links kw.additionalProperties
          (place.others? (knownNames kw) v)
        && allMeet links (kw.allOf) place v
        && anyMeets links kw.anyOf place v
        && notMeets links kw.not place v
        && linksMeet links kw.links place v

/-- Whether each of some values meets a schema that may be missing. -/
def eachMeets [TextLibrary] (links : Json → String → List Json) :
    Option Schema → Option (List Json) → Bool
  | some s, some values => values.all fun v => meets links s .value v
  | _, _ => true

/-- Whether one of some values meets a schema that may be missing. -/
def someMeets [TextLibrary] (links : Json → String → List Json) :
    Option Schema → Option (List Json) → Bool
  | some s, some values => values.any fun v => meets links s .value v
  | _, _ => true

/-- Whether the properties that are present meet their schemas. -/
def propertiesMeet [TextLibrary] (links : Json → String → List Json) :
    Option (List (String × Schema)) → Place → Json → Bool
  | none, _, _ => true
  | some fields, place, v => fieldsMeet links fields place v

/-- Whether the properties of a list that are present meet their schemas. -/
def fieldsMeet [TextLibrary] (links : Json → String → List Json) :
    List (String × Schema) → Place → Json → Bool
  | [], _, _ => true
  | (name, s) :: rest, place, v =>
      (place.property? v name).all (fun child => meets links s .value child)
        && fieldsMeet links rest place v

/-- Whether all branches are met. -/
def allMeet [TextLibrary] (links : Json → String → List Json) :
    Option (List Schema) → Place → Json → Bool
  | none, _, _ => true
  | some branches, place, v => everyMeets links branches place v

/-- Whether all schemas of a list are met. -/
def everyMeets [TextLibrary] (links : Json → String → List Json) :
    List Schema → Place → Json → Bool
  | [], _, _ => true
  | s :: rest, place, v =>
      meets links s place v && everyMeets links rest place v

/-- Whether one of the branches is met, if there are any. -/
def anyMeets [TextLibrary] (links : Json → String → List Json) :
    Option (List Schema) → Place → Json → Bool
  | none, _, _ => true
  | some branches, place, v => oneMeets links branches place v

/-- Whether one schema of a list is met. -/
def oneMeets [TextLibrary] (links : Json → String → List Json) :
    List Schema → Place → Json → Bool
  | [], _, _ => false
  | s :: rest, place, v =>
      meets links s place v || oneMeets links rest place v

/-- Whether a negated schema, which may be missing, is not met. -/
def notMeets [TextLibrary] (links : Json → String → List Json) :
    Option Schema → Place → Json → Bool
  | none, _, _ => true
  | some s, place, v => !meets links s place v

/-- Whether each link type leads to an active contract that meets its
    schema.  Links are asked of contracts only. -/
def linksMeet [TextLibrary] (links : Json → String → List Json) :
    Option (List (String × Schema)) → Place → Json → Bool
  | none, _, _ => true
  | some fields, .contract, c => linkTypesMeet links fields c
  | some _, .value, _ => false

/-- Whether each link type of a list leads to an active contract that meets
    its schema. -/
def linkTypesMeet [TextLibrary] (links : Json → String → List Json) :
    List (String × Schema) → Json → Bool
  | [], _ => true
  | (linkType, s) :: rest, c =>
      ((links c linkType).filter Json.isActive).any
          (fun d => meets links s .contract d)
        && linkTypesMeet links rest c

end

variable [TextLibrary]
variable {links : Json → String → List Json}

theorem everyMeets_eq (schemas : List Schema) (place : Place) (v : Json) :
    everyMeets links schemas place v
      = schemas.all fun s => s.meets links place v := by
  induction schemas with
  | nil => rfl
  | cons s rest ih => rw [everyMeets, ih, List.all_cons]

theorem oneMeets_eq (schemas : List Schema) (place : Place) (v : Json) :
    oneMeets links schemas place v
      = schemas.any fun s => s.meets links place v := by
  induction schemas with
  | nil => rfl
  | cons s rest ih => rw [oneMeets, ih, List.any_cons]

/-- A conjunction is met where all of its schemas are. -/
theorem meets_conj (schemas : List Schema) (place : Place) (v : Json) :
    (conj schemas).meets links place v
      = schemas.all fun s => s.meets links place v := by
  have plain : ({ allOf := some schemas } : Keywords Schema).plainMeets place v
      = true := by
    cases place <;> cases v <;> simp [Keywords.plainMeets, Keywords.scalarMeets,
      Keywords.stringMeets, Keywords.numberMeets, Place.items?]
  rw [conj, meets, plain, allMeet, everyMeets_eq]
  simp [eachMeets, someMeets, propertiesMeet, anyMeets, notMeets, linksMeet]

/-- A disjunction is met where one of its schemas is. -/
theorem meets_disj (schemas : List Schema) (place : Place) (v : Json) :
    (disj schemas).meets links place v
      = schemas.any fun s => s.meets links place v := by
  have plain : ({ anyOf := some schemas } : Keywords Schema).plainMeets place v
      = true := by
    cases place <;> cases v <;> simp [Keywords.plainMeets, Keywords.scalarMeets,
      Keywords.stringMeets, Keywords.numberMeets, Place.items?]
  rw [disj, meets, plain, anyMeets, oneMeets_eq]
  simp [eachMeets, someMeets, propertiesMeet, allMeet, notMeets, linksMeet]

end Schema

end LinkedContracts
