import LinkedContracts.Filter.Sql
import LinkedContracts.Query

/-! # Queries as statements

    The statement of a query has a row for each contract that meets the
    filter: its id, what is selected of it, and a column for each join with
    the linked contracts.  The joins only feed these columns; the filter
    checks links with conditions of its own. -/

namespace LinkedContracts

namespace Query

open Sql

/-! ## Selected parts -/

mutual

/-- An expression cut down to what is selected of it; `depth` keeps the
    names of nested parts apart. -/
def projection : Selection → String → Nat → String
  | ⟨[], _⟩, expr, _ => expr
  | ⟨p :: ps, _⟩, expr, depth =>
      let part := ident ("p" ++ toString depth)
      let cases := projectionCases (p :: ps) (part ++ ".\"value\"") (depth + 1)
      let value :=
        if cases.isEmpty then part ++ ".\"value\""
        else "CASE " ++ part ++ ".\"key\" " ++ joinWith " " cases ++ " ELSE "
          ++ part ++ ".\"value\" END"
      "(CASE WHEN jsonb_typeof(" ++ expr
        ++ ") = 'object' THEN (SELECT coalesce(jsonb_object_agg(" ++ part
        ++ ".\"key\", " ++ value ++ "), '\x7b\x7d'::jsonb) FROM jsonb_each("
        ++ expr ++ ") AS " ++ part ++ "(\"key\", \"value\") WHERE " ++ part
        ++ ".\"key\" IN ("
        ++ joinWith ", " ((Dict.keys (p :: ps)).map literal)
        ++ ")) ELSE " ++ expr ++ " END)"

/-- The cases of the properties that are cut down themselves. -/
def projectionCases :
    List (String × Selection) → String → Nat → List String
  | [], _, _ => []
  | (key, sub) :: rest, expr, depth =>
      if sub.properties.isEmpty then projectionCases rest expr depth
      else ("WHEN " ++ literal key ++ " THEN " ++ projection sub expr depth)
        :: projectionCases rest expr depth

end

/-! ## Joins -/

/-- What a join adds to a statement. -/
structure JoinText where
  column : String
  lines : List String
  params : List Json

/-- What a join adds to a statement, after `n` parameters.  A hoisted filter
    is checked where every join is made. -/
def joinText (tables : Tables) (j : Join) (select : Selection) (n : Nat) :
    JoinText :=
  let parent := ident j.parent
  let links := ident j.links
  let joined := ident j.name
  let (condition, params) := j.condition.render tables n
  let (present, more) :=
    if j.hoisted then
      let (filter, more) := j.filter.render tables (n + params.length)
      (joined ++ ".\"id\" IS NOT NULL AND " ++ filter, more)
    else (joined ++ ".\"id\" IS NOT NULL", [])
  { column :=
      "coalesce(jsonb_agg(DISTINCT jsonb_build_object('parent', " ++ parent
        ++ ".\"id\", 'id', " ++ joined ++ ".\"id\", 'contract', "
        ++ projection select ("to_jsonb(" ++ joined ++ ")") 0
        ++ ")) FILTER (WHERE " ++ present ++ "), '[]'::jsonb) AS " ++ joined
    lines :=
      ["LEFT JOIN " ++ ident tables.links ++ " AS " ++ links ++ " ON "
        ++ attached links parent (literal j.linkType),
       "LEFT JOIN " ++ ident tables.contracts ++ " AS " ++ joined ++ " ON "
        ++ farEnd links parent joined ++ " AND " ++ joined
        ++ ".\"active\" AND " ++ condition]
    params := params ++ more }

/-- What joins add to a statement, after `n` parameters. -/
def joinTexts (tables : Tables) : List (Join × Selection) → Nat → List JoinText
  | [], _ => []
  | (j, select) :: rest, n =>
      let text := joinText tables j select n
      text :: joinTexts tables rest (n + text.params.length)

/-! ## The statement -/

/-- The expression results are ordered by. -/
def orderExpression (table : String) (keys : List String) : String :=
  if QueryOptions.byVersion keys then
    "string_to_array(split_part(split_part(" ++ ident table
      ++ ".\"version\", '+', 1), '-', 1), '.')::int[]"
  else (ValuePath.mk (.row table) keys).sql

/-- The order of the results. -/
def orderText (table : String) (options : QueryOptions) : String :=
  let root := ident table
  match options.sortKeys? with
  | none => root ++ ".\"created_at\" ASC, " ++ root ++ ".\"id\" ASC"
  | some keys =>
      orderExpression table keys ++ (if options.descending then " DESC" else " ASC")
        ++ ", " ++ root ++ ".\"id\" ASC"

/-- The lines of paging. -/
def pagingLines (options : QueryOptions) : List String :=
  (options.limit.toList.map fun n => "LIMIT " ++ toString n)
  ++ ((options.skip.filter (0 < ·)).toList.map fun n => "OFFSET " ++ toString n)

/-- The statement of a query with its parameters. -/
def statement (q : Query) : String × List Json :=
  let root := ident q.tables.contracts
  let joins := joinTexts q.tables q.selectedJoins 0
  let columns :=
    (root ++ ".\"id\" AS \"id\"")
      :: (projection q.select ("to_jsonb(" ++ root ++ ")") 0 ++ " AS \"contract\"")
      :: joins.map JoinText.column
  let params := joins.flatMap JoinText.params
  let (condition, more) := q.filter.render q.tables params.length
  let lines :=
    ["SELECT " ++ joinWith ",\n  " columns, "FROM " ++ root]
    ++ joins.flatMap JoinText.lines
    ++ ["WHERE " ++ condition]
    ++ (if joins.isEmpty then [] else ["GROUP BY " ++ root ++ ".\"id\""])
    ++ ["ORDER BY " ++ orderText q.tables.contracts q.options]
    ++ pagingLines q.options
  (joinWith "\n" lines, params ++ more)

end Query

end LinkedContracts
