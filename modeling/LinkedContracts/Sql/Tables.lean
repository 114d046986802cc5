import LinkedContracts.Sql.Quoted

/-! # Tables

    The two tables a statement reads: contracts, and the links between
    them.  A row of the links table attaches to a contract from either end,
    under the name of the link or its inverse. -/

namespace LinkedContracts

/-- The names of the tables. -/
structure Tables where
  contracts : String := "cards"
  links : String := "links"
deriving DecidableEq

namespace Sql

/-- The condition that a row of the links table attaches to a contract
    under a name.  All three are given as they stand in a statement. -/
def attached (links parent name : String) : String :=
  s!"(({links}.\"from_id\" = {parent}.\"id\" AND {links}.\"name\" = {name}) "
    ++ s!"OR ({links}.\"to_id\" = {parent}.\"id\" "
    ++ s!"AND {links}.\"inverse_name\" = {name}))"

/-- The condition that a contract is at the far end of a row of the links
    table. -/
def farEnd (links parent joined : String) : String :=
  s!"{joined}.\"id\" = CASE WHEN {links}.\"from_id\" = {parent}.\"id\" "
    ++ s!"THEN {links}.\"to_id\" ELSE {links}.\"from_id\" END"

/-- The name of the links table that goes with a joined contract. -/
def linksName (joined : String) : String :=
  let cs := joined.toList
  let marker := "join@".toList
  "links@" ++ if marker.isPrefixOf cs then String.ofList (cs.drop marker.length)
    else joined

end Sql

end LinkedContracts
