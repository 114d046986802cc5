import LinkedContracts.Query.Order
import LinkedContracts.Query.Row
import LinkedContracts.Store

/-! # Queries run on the store

    A query run on the store gives the rows its statement would return: of
    all contracts in the order of the query those that meet the filter, cut
    to the page.  Evaluation ends with the page, so that an error in a later
    contract does not show. -/

namespace LinkedContracts

namespace Store

/-- The linked contracts of the store, as rows. -/
def linkSource (s : Store) : LinkSource := fun parent name =>
  .ok (match parent.stringField? "id" with
    | some id => (s.linked id name).map Contract.toRow
    | none => [])

/-- The first `limit` rows after the first `skip` of the contracts that meet
    the filter of a query. -/
def pageRows (q : Query) (source : LinkSource) :
    List Json → Nat → Option Nat → Except Error (List Json)
  | [], _, _ => .ok []
  | _, _, some 0 => .ok []
  | c :: rest, skip, limit => do
      match ← q.evaluateRow c source with
      | none => pageRows q source rest skip limit
      | some row =>
          if 0 < skip then pageRows q source rest (skip - 1) limit
          else
            let rows ← pageRows q source rest 0 (limit.map (· - 1))
            return row :: rows

/-- The rows of a query. -/
def run (s : Store) (q : Query) : Except Error (List Json) :=
  pageRows q s.linkSource (Query.sort q.options (s.contracts.map Contract.toRow))
    (q.options.skip.getD 0) q.options.limit

end Store

end LinkedContracts
