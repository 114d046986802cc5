import LinkedContracts.Query
import LinkedContracts.Version

/-! # The order of results

    Results are ordered by the time of creation and then the id, or by a
    value of the contract and then the id.  A contract without the value
    comes last in ascending and first in descending order. -/

namespace LinkedContracts

namespace Query

/-- The id of a contract; empty if it has none. -/
def idOf (contract : Json) : String := (contract.stringField? "id").getD ""

/-- Compare values that may be missing; missing ones come last. -/
def cmpMissingLast (cmp : α → α → Ordering) : Option α → Option α → Ordering
  | none, none => .eq
  | none, some _ => .gt
  | some _, none => .lt
  | some a, some b => cmp a b

/-- Compare values that may be missing; missing ones come first. -/
def cmpMissingFirst (cmp : α → α → Ordering) : Option α → Option α → Ordering
  | none, none => .eq
  | none, some _ => .lt
  | some _, none => .gt
  | some a, some b => cmp a b

/-- The version of a contract, if it has one that can be read. -/
def versionOf (contract : Json) : Option Version :=
  (contract.stringField? "version").bind Version.parse?

/-- The value keys lead to, unless it is null. -/
def sortValue (keys : List String) (contract : Json) : Option Json :=
  ((ValuePath.mk (.row "") keys).resolve contract).filter fun v => !v.isNull

/-- Compare contracts by the keys to order by. -/
def cmpByKeys (keys : List String) (a b : Json) : Ordering :=
  if QueryOptions.byVersion keys then
    cmpMissingLast Version.cmp (versionOf a) (versionOf b)
  else cmpMissingLast Json.cmp (sortValue keys a) (sortValue keys b)

/-- The order of contracts. -/
def cmpContracts (options : QueryOptions) (a b : Json) : Ordering :=
  let byId := compare (idOf a) (idOf b)
  match options.sortKeys? with
  | none =>
      (cmpMissingFirst compare (a.stringField? "created_at")
        (b.stringField? "created_at")).then byId
  | some keys =>
      let order := cmpByKeys keys a b
      (if options.descending then order.swap else order).then byId

/-- Contracts in the order of a query; contracts that compare equal stay as
    they were. -/
def sort (options : QueryOptions) (contracts : List Json) : List Json :=
  contracts.mergeSort fun a b => cmpContracts options a b != .gt

end Query

end LinkedContracts
