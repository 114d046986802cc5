import LinkedContracts.Dict
import LinkedContracts.Numeric.Binary64

/-! # Documents

    The values contracts, schemas and parameters are made of.  Numbers are
    of two kinds, integers of the 64-bit range and floating-point values;
    they keep their kind when written, and are compared by value. -/

namespace LinkedContracts

/-- A number of a document. -/
inductive Number where
  /-- An integer between `-2 ^ 63` and `2 ^ 64 - 1`. -/
  | int (value : Int)
  | double (value : Binary64)
deriving DecidableEq, Inhabited

namespace Number

/-- The nearest floating-point value. -/
def toDouble : Number → Binary64
  | .int i => .ofInt i
  | .double x => x

/-- Comparison by value, integers rounded to floating point. -/
def cmp (a b : Number) : Ordering := Binary64.cmp a.toDouble b.toDouble

/-- Equality by value, integers rounded to floating point. -/
def eq (a b : Number) : Bool := Binary64.eq a.toDouble b.toDouble

/-- Equality within a kind: an integer never equals a floating-point
    value. -/
def same : Number → Number → Bool
  | .int i, .int j => i == j
  | .double x, .double y => x.eq y
  | _, _ => false

/-- Whether the value is a whole number. -/
def isWhole : Number → Bool
  | .int _ => true
  | .double x => x.isWhole

end Number

/-- A document. -/
inductive Json where
  | null
  | bool (value : Bool)
  | number (value : Number)
  | string (value : String)
  | array (items : List Json)
  | object (fields : List (String × Json))
deriving Inhabited

namespace Json

/-- The string a document is. -/
def asString? : Json → Option String
  | .string s => some s
  | _ => none

/-- The items of an array. -/
def asArray? : Json → Option (List Json)
  | .array items => some items
  | _ => none

/-- The value of a key of an object. -/
def field? : Json → String → Option Json
  | .object fields, key => Dict.find? fields key
  | _, _ => none

/-- The string at a key of an object. -/
def stringField? (j : Json) (key : String) : Option String :=
  (j.field? key).bind asString?

def isNull : Json → Bool
  | .null => true
  | _ => false

/-- An object of the given pairs. -/
def ofPairs (pairs : List (String × Json)) : Json := .object (Dict.ofList pairs)

/-- A natural number as a document. -/
def ofNat (n : Nat) : Json := .number (.int n)

/-- Strings as a document. -/
def ofStrings (items : List String) : Json := .array (items.map .string)

/-! ## Equality

    Two equalities are told apart by what they do with numbers: `equal`
    compares them by value, `same` within their kind. -/

mutual

/-- Equality of documents, given equality of numbers. -/
def equalBy (eq : Number → Number → Bool) : Json → Json → Bool
  | .null, .null => true
  | .bool a, .bool b => a == b
  | .number a, .number b => eq a b
  | .string a, .string b => a == b
  | .array xs, .array ys => equalItems eq xs ys
  | .object xs, .object ys => xs.length == ys.length && equalFields eq xs ys
  | _, _ => false

/-- Equality of lists of documents. -/
def equalItems (eq : Number → Number → Bool) : List Json → List Json → Bool
  | [], [] => true
  | x :: xs, y :: ys => equalBy eq x y && equalItems eq xs ys
  | _, _ => false

/-- Whether every field of the first object has an equal in the second. -/
def equalFields (eq : Number → Number → Bool) :
    List (String × Json) → List (String × Json) → Bool
  | [], _ => true
  | (k, x) :: xs, ys =>
      (match Dict.find? ys k with
        | some y => equalBy eq x y
        | none => false) && equalFields eq xs ys

end

/-- Equality with numbers compared by value: `1` equals `1.0`. -/
def equal (a b : Json) : Bool := equalBy Number.eq a b

/-- Equality with numbers compared within their kind: `1` and `1.0`
    differ. -/
def same (a b : Json) : Bool := equalBy Number.same a b

/-! ## Order

    Null, strings, numbers, booleans, arrays and objects ascend in this
    order.  Of two arrays or objects the shorter comes first; of the same
    length the first difference decides. -/

/-- The place of a kind of document in the order. -/
def rank : Json → Nat
  | .null => 0
  | .string _ => 1
  | .number _ => 2
  | .bool _ => 3
  | .array _ => 4
  | .object _ => 5

/-- False before true. -/
def cmpBool : Bool → Bool → Ordering
  | false, true => .lt
  | true, false => .gt
  | _, _ => .eq

mutual

/-- The order of documents. -/
def cmp : Json → Json → Ordering
  | .string a, .string b => compare a b
  | .number a, .number b => Number.cmp a b
  | .bool a, .bool b => cmpBool a b
  | .array xs, .array ys => (compare xs.length ys.length).then (cmpItems xs ys)
  | .object xs, .object ys =>
      (compare xs.length ys.length).then (cmpFields xs ys)
  | a, b => compare a.rank b.rank

/-- The first difference between two lists. -/
def cmpItems : List Json → List Json → Ordering
  | x :: xs, y :: ys => (cmp x y).then (cmpItems xs ys)
  | _, _ => .eq

/-- The first difference between two lists of fields, keys before
    values. -/
def cmpFields : List (String × Json) → List (String × Json) → Ordering
  | (k, x) :: xs, (l, y) :: ys =>
      ((compare k l).then (cmp x y)).then (cmpFields xs ys)
  | _, _ => .eq

end

end Json

end LinkedContracts
