import LinkedContracts.Proofs.Query.Order
import LinkedContracts.Query.Statement

/-! # The order of a statement

    The clause that the rows of a statement are ordered by, by its syntax: `text`
    is how a clause is written and `cmp` how it compares two rows.

    NULL is `none`.  A column is NULL where a row has nothing or null in it; as a
    document it is NULL still, unless `coalesce` makes a null of it, which is a
    document like any other.  NULL comes last in ascending order, and descending
    order is ascending order the other way round. -/

namespace LinkedContracts

namespace Sql

open Query (cmpMissingLast)

/-! ## Expressions -/

/-- An expression for a document. -/
inductive Expression where
  | null
  /-- A column that holds documents. -/
  | column (table name : String)
  /-- A column as a document. -/
  | document (table name : String)
  /-- A document, or null in the place of NULL. -/
  | orNull (e : Expression)
  /-- The value at a key of a document. -/
  | get (e : Expression) (key : String)

namespace Expression

/-- An expression as it is written. -/
def text : Expression → String
  | null => "NULL::jsonb"
  | column table name => ident table ++ "." ++ ident name
  | document table name => "to_jsonb(" ++ (ident table ++ "." ++ ident name) ++ ")"
  | orNull e => "coalesce(" ++ e.text ++ ", 'null'::jsonb)"
  | get e key => e.text ++ " -> " ++ literal key

/-- What an expression comes to on a row. -/
def value (row : Json) : Expression → Option Json
  | null => none
  | column _ name | document _ name => (row.field? name).filter fun v => !v.isNull
  | orNull e => some ((e.value row).getD .null)
  | get e key => (e.value row).bind fun v => v.field? key

/-- The expression for what keys lead to, the first of which is a column. -/
def ofKeys (table name : String) (rest : List String) : Expression :=
  if name ∉ ValuePath.columns then null
  else if rest.isEmpty then orNull (document table name)
  else rest.foldl get (if name = "data" then column table name else document table name)

theorem text_foldl_get (e : Expression) (keys : List String) :
    (keys.foldl get e).text = ValuePath.withKeys e.text keys := by
  induction keys generalizing e with
  | nil => rfl
  | cons key rest ih => exact ih (get e key)

/-- The expression is written as the path is. -/
theorem text_ofKeys (table name : String) (rest : List String) :
    (ofKeys table name rest).text = (ValuePath.mk (.row table) (name :: rest)).sql := by
  simp only [ofKeys, ValuePath.sql]
  split
  · rfl
  split
  · rw [← String.toList_inj]
    simp [text]
  rw [text_foldl_get]
  split <;> rfl

theorem value_foldl_get (row : Json) (e : Expression) (keys : List String) :
    (keys.foldl get e).value row = (e.value row).bind fun v => ValuePath.descend v keys := by
  induction keys generalizing e with
  | nil => cases h : e.value row <;> simp [h, ValuePath.descend]
  | cons key rest ih =>
      rw [List.foldl_cons, ih, value, Option.bind_assoc]
      rfl

/-- A column comes to what the row has in it, and below a null there is
    nothing. -/
theorem bind_column {row : Json} {name key : String} {rest : List String} :
    ((row.field? name).filter fun v => !v.isNull).bind
        (fun v => ValuePath.descend v (key :: rest))
      = ValuePath.descend ((row.field? name).getD .null) (key :: rest) := by
  cases row.field? name with
  | none => rfl
  | some v =>
      cases v with
      | null => rfl
      | _ => rfl

/-- The expression comes to what the path leads to, and to NULL where it leads
    nowhere. -/
theorem value_ofKeys (row : Json) (table name : String) (rest : List String) :
    (ofKeys table name rest).value row
      = (ValuePath.mk (.row table) (name :: rest)).resolve row := by
  simp only [ofKeys, ValuePath.resolve]
  by_cases hname : name ∈ ValuePath.columns
  · rw [if_neg (fun hnot => hnot hname), if_pos hname]
    cases rest with
    | nil =>
        show some (((row.field? name).filter fun v => !v.isNull).getD .null)
          = some ((row.field? name).getD .null)
        cases row.field? name with
        | none => rfl
        | some v => cases v <;> rfl
    | cons key rest =>
        rw [if_neg (by simp), value_foldl_get, ← bind_column]
        split <;> rfl
  · rw [if_pos hname, if_neg hname]
    rfl

end Expression

/-! ## Clauses -/

/-- The part of a text before the first separator. -/
def firstPart (separator : Char) (cs : List Char) : List Char :=
  ((splitFirst separator cs).getD (cs, [])).1

/-- The numbers in the text of a version. -/
def versionNumbers (text : String) : Option (List Nat) :=
  (splitAll '.' (firstPart '-' (firstPart '+' text.toList))).mapM word?

/-- What a clause orders by before the ids. -/
inductive SortKey where
  /-- The numbers of the version. -/
  | version (table : String)
  | document (e : Expression)

namespace SortKey

/-- A key as it is written. -/
def text : SortKey → String
  | version table => "string_to_array(split_part(split_part(" ++ ident table
      ++ ".\"version\", '+', 1), '-', 1), '.')::int[]"
  | document e => e.text

/-- The ascending order of two rows by a key. -/
def cmp (a b : Json) : SortKey → Ordering
  | version _ =>
      let numbers (row : Json) := (row.stringField? "version").bind versionNumbers
      cmpMissingLast compare (numbers a) (numbers b)
  | document e => cmpMissingLast Json.cmp (e.value a) (e.value b)

/-- The key that keys of options stand for. -/
def ofKeys (table : String) (keys : List String) : SortKey :=
  if QueryOptions.byVersion keys then version table
  else match keys with
    | [] => document .null
    | name :: rest => document (.ofKeys table name rest)

end SortKey

/-- A clause that orders rows by a key, then by their ids. -/
structure OrderClause where
  table : String
  key : SortKey
  descending : Bool

namespace OrderClause

/-- A clause as it is written. -/
def text (c : OrderClause) : String :=
  c.key.text ++ (if c.descending then " DESC" else " ASC")
    ++ ", " ++ ident c.table ++ ".\"id\" ASC"

/-- The order of two rows by a clause. -/
def cmp (c : OrderClause) (a b : Json) : Ordering :=
  let byKey := c.key.cmp a b
  (if c.descending then byKey.swap else byKey).then
    (cmpMissingLast compare (a.stringField? "id") (b.stringField? "id"))

/-- The clause that keys and a direction stand for. -/
def ofKeys (table : String) (keys : List String) (descending : Bool) : OrderClause :=
  ⟨table, .ofKeys table keys, descending⟩

/-- The clause is the one that a statement is written with. -/
theorem text_ofKeys (table : String) {options : QueryOptions} {keys : List String}
    (h : options.sortKeys? = some keys) :
    (ofKeys table keys options.descending).text = Query.orderText table options := by
  have hexpression : (SortKey.ofKeys table keys).text = Query.orderExpression table keys := by
    simp only [SortKey.ofKeys, Query.orderExpression]
    split
    · rfl
    · cases keys with
      | nil => exact absurd rfl (QueryOptions.ne_nil_of_sortKeys? h)
      | cons name rest => exact Expression.text_ofKeys table name rest
  simp only [text, ofKeys, hexpression, Query.orderText, h]
  rfl

end OrderClause

end Sql

end LinkedContracts
