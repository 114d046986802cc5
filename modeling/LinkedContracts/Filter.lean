import LinkedContracts.Schema
import LinkedContracts.TextLibrary
import LinkedContracts.ValuePath

/-! # Filters

    A filter is what a schema compiles to: a condition on the values at
    paths.  `each` asks for all or some members of an array or object, bound
    to a name of their own, and `linked` for some contract linked to a row,
    bound to the name of a join.

    A filter is rendered as a condition of a statement and evaluated on
    contracts at hand. -/

namespace LinkedContracts

/-- A comparison. -/
inductive Comparison where
  | less
  | atMost
  | greater
  | atLeast
deriving DecidableEq

namespace Comparison

/-- The operator in a statement. -/
def sql : Comparison → String
  | less => "<"
  | atMost => "<="
  | greater => ">"
  | atLeast => ">="

/-- Whether a comparison holds of values that are so ordered. -/
def holds : Comparison → Ordering → Bool
  | less, o => o == .lt
  | atMost, o => o != .gt
  | greater, o => o == .gt
  | atLeast, o => o != .lt

end Comparison

/-- The members that are quantified over. -/
inductive Members where
  /-- The items of an array. -/
  | items
  /-- The values of an object at other keys than the known ones. -/
  | others (known : List String)

/-- How many members are asked for. -/
inductive Quantifier where
  | all
  | some
deriving DecidableEq

/-- A condition on the values at paths. -/
inductive Filter where
  | always
  | never
  | conj (filters : List Filter)
  | disj (filters : List Filter)
  | neg (filter : Filter)
  /-- There is a value. -/
  | present (path : ValuePath)
  | typeIs (path : ValuePath) (types : List JsonType)
  | equals (path : ValuePath) (value : Json)
  | oneOf (path : ValuePath) (values : List Json)
  | pattern (path : ValuePath) (pattern : Pattern)
  | bound (path : ValuePath) (comparison : Comparison) (value : Binary64)
  /-- The length of the text. -/
  | length (path : ValuePath) (comparison : Comparison) (value : Nat)
  | itemCount (path : ValuePath) (comparison : Comparison) (value : Nat)
  | fullText (path : ValuePath) (term : String)
  | each (path : ValuePath) (members : Members) (quantifier : Quantifier)
      (name : String) (filter : Filter)
  /-- Some active contract is linked to the row bound to `parent` and meets
      the filter, bound to `joined`. -/
  | linked (parent linkType joined : String) (filter : Filter)

namespace Filter

instance : Inhabited Filter := ⟨always⟩

/-- Whether the filter is the one that always holds. -/
def isAlways : Filter → Bool
  | always => true
  | _ => false

/-- The conjunction of filters, without those that always hold. -/
def ofAll (filters : List Filter) : Filter :=
  match filters.filter fun f => !f.isAlways with
  | [] => always
  | [f] => f
  | fs => conj fs

mutual

/-- The names of the joins a filter refers to, in the order they stand. -/
def joins : Filter → List String
  | conj fs | disj fs => joinsAll fs
  | neg f | each _ _ _ _ f => joins f
  | linked _ _ joined f => joined :: joins f
  | _ => []

/-- The names of the joins filters refer to. -/
def joinsAll : List Filter → List String
  | [] => []
  | f :: rest => joins f ++ joinsAll rest

end

end Filter

end LinkedContracts
