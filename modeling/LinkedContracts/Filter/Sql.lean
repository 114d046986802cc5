import LinkedContracts.Filter
import LinkedContracts.Sql.Tables
import LinkedContracts.Text.Words

/-! # Filters as conditions of statements

    `render` writes a filter as a condition.  Values never stand in the
    text: they are parameters, which the text refers to by number.  The
    number of parameters bound before is an argument, so that conditions
    of one statement share one list of parameters. -/

namespace LinkedContracts

namespace Sql

/-- The parameter after `n` others. -/
def parameter (n : Nat) : String := "$" ++ toString (n + 1)

/-- A condition that holds only where the value has a type. -/
def whenType (expr type yes otherwise : String) : String :=
  "(CASE WHEN jsonb_typeof(" ++ expr ++ ") = '" ++ type ++ "' THEN " ++ yes
    ++ " ELSE " ++ otherwise ++ " END)"

/-- The test of a type.  An integer is a number without a fraction. -/
def typeTest (expr : String) : JsonType → String
  | .integer => whenType expr "number" ("(" ++ expr ++ ")::numeric % 1 = 0") "false"
  | type => "jsonb_typeof(" ++ expr ++ ") = '" ++ type.name ++ "'"

/-- The test of several types. -/
def typeTests (expr : String) (types : List JsonType) : String :=
  match types with
  | [] => "false"
  | types => "(" ++ joinWith " OR " (types.map (typeTest expr)) ++ ")"

/-- References to `count` parameters after `n` others, as values. -/
def valueParameters (n count : Nat) : List String :=
  (List.range count).map fun i => parameter (n + i) ++ "::jsonb"

/-- Conditions joined by an operator. -/
def joined (operator empty : String) (parts : List String) : String :=
  match parts with
  | [] => empty
  | parts => "(" ++ joinWith operator parts ++ ")"

/-- The rows of the members of a value. -/
def memberRows (expr name : String) : Members → String
  | .items => "jsonb_array_elements(" ++ expr ++ ") AS " ++ name ++ "(\"value\")"
  | .others _ => "jsonb_each(" ++ expr ++ ") AS " ++ name ++ "(\"key\", \"value\")"

/-- The type of values that have such members. -/
def memberType : Members → String
  | .items => "array"
  | .others _ => "object"

/-- The condition that leaves out known keys. -/
def unknownKey (name : String) : Members → String
  | .items | .others [] => ""
  | .others known =>
      name ++ ".\"key\" NOT IN (" ++ joinWith ", " (known.map literal) ++ ") AND "

/-- The condition on all or some members, given the condition on one. -/
def quantified (expr name : String) (members : Members)
    (quantifier : Quantifier) (condition : String) : String :=
  let rows := fun exists_ inner =>
    exists_ ++ " (SELECT 1 FROM " ++ memberRows expr name members ++ " WHERE "
      ++ unknownKey name members ++ inner ++ ")"
  match quantifier with
  | .all =>
      whenType expr (memberType members)
        (rows "NOT EXISTS" ("NOT (" ++ condition ++ ")")) "true"
  | .some => whenType expr (memberType members) (rows "EXISTS" condition) "false"

/-- The condition that some active contract is linked, given the condition
    on it. -/
def linkExists (tables : Tables) (parent linkType join condition : String) :
    String :=
  let links := ident (linksName join)
  let joined := ident join
  let parent := ident parent
  "EXISTS (SELECT 1 FROM " ++ ident tables.links ++ " AS " ++ links ++ " JOIN "
    ++ ident tables.contracts ++ " AS " ++ joined ++ " ON "
    ++ farEnd links parent joined ++ " WHERE "
    ++ attached links parent (literal linkType) ++ " AND " ++ joined
    ++ ".\"active\" AND " ++ condition ++ ")"

end Sql

namespace Filter

open Sql

mutual

/-- The filter as a condition with its parameters, after `n` others. -/
def render (tables : Tables) : Filter → Nat → String × List Json
  | always, _ => ("true", [])
  | never, _ => ("false", [])
  | conj fs, n =>
      let (parts, params) := renderAll tables fs n
      (Sql.joined " AND " "true" parts, params)
  | disj fs, n =>
      let (parts, params) := renderAll tables fs n
      (Sql.joined " OR " "false" parts, params)
  | neg f, n =>
      let (condition, params) := render tables f n
      ("NOT (" ++ condition ++ ")", params)
  | present p, _ => ("(" ++ p.sql ++ " IS NOT NULL)", [])
  | typeIs p types, _ => (typeTests p.sql types, [])
  | equals p value, n =>
      ("(" ++ p.sql ++ " = " ++ parameter n ++ "::jsonb)", [value])
  | oneOf _ [], _ => ("false", [])
  | oneOf p values, n =>
      ("(" ++ p.sql ++ " IN ("
        ++ joinWith ", " (valueParameters n values.length) ++ "))", values)
  | pattern p re, n =>
      ("(" ++ p.textSql ++ (if re.ignoresCase then " ~* " else " ~ ")
        ++ parameter n ++ "::text)", [.string re.source])
  | bound p op value, n =>
      (whenType p.sql "number"
        ("(" ++ p.sql ++ ")::numeric " ++ op.sql ++ " " ++ parameter n
          ++ "::numeric") "false", [.number (.double value)])
  | length p op value, n =>
      ("(char_length" ++ p.textSql ++ " " ++ op.sql ++ " " ++ parameter n
        ++ "::integer)", [.ofNat value])
  | itemCount p op value, n =>
      (whenType p.sql "array"
        ("jsonb_array_length(" ++ p.sql ++ ") " ++ op.sql ++ " " ++ parameter n
          ++ "::integer") "false", [.ofNat value])
  | fullText p term, n =>
      ("(to_tsvector('english', " ++ p.textSql ++ ") @@ to_tsquery('english', "
        ++ parameter n ++ "::text))", [.string (Text.searchExpression term)])
  | each p members quantifier name f, n =>
      let (condition, params) := render tables f n
      (quantified p.sql (ident name) members quantifier condition, params)
  | linked parent linkType join f, n =>
      let (condition, params) := render tables f n
      (linkExists tables parent linkType join condition, params)

/-- Filters as conditions with their parameters, after `n` others. -/
def renderAll (tables : Tables) : List Filter → Nat → List String × List Json
  | [], _ => ([], [])
  | f :: rest, n =>
      let (part, params) := render tables f n
      let (parts, more) := renderAll tables rest (n + params.length)
      (part :: parts, params ++ more)

end

end Filter

end LinkedContracts
