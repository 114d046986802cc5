import LinkedContracts.Filter.Eval
import LinkedContracts.Filter.Sql

/-! # Conditions of statements

    The conditions that a filter is rendered as, by their syntax: `text` is
    how a condition is written and `value` what it comes to in SQL's
    three-valued logic.

    NULL is `none`.  A value is NULL where its path resolves to nothing, and
    a comparison or a function of NULL is NULL; of values at hand each is
    what the evaluator computes.  The column of a linked row that says whether
    it is active is NULL where the row does not say so.  The connectives are
    Kleene's; a branch is taken and a row kept only where the condition on it is
    TRUE. -/

namespace LinkedContracts

/-! ## Truth values -/

/-- TRUE, FALSE or NULL. -/
abbrev Truth := Option Bool

namespace Truth

def not : Truth → Truth := Option.map (!·)

def and : Truth → Truth → Truth
  | some false, _ | _, some false => some false
  | some true, some true => some true
  | _, _ => none

def or : Truth → Truth → Truth
  | some true, _ | _, some true => some true
  | some false, some false => some false
  | _, _ => none

/-- The conjunction of truth values. -/
def all (ts : List Truth) : Truth := ts.foldr and (some true)

/-- The disjunction of truth values. -/
def any (ts : List Truth) : Truth := ts.foldr or (some false)

/-- Whether a truth value is TRUE; NULL is not. -/
def holds (t : Truth) : Bool := t == some true

/-- A function of two operands, NULL where one is. -/
def strict (f : Json → Json → Bool) : Option Json → Option Json → Truth
  | some v, some w => some (f v w)
  | _, _ => none

@[simp] theorem not_some (x : Bool) : not (some x) = some !x := rfl

@[simp] theorem true_or (t : Truth) : or (some true) t = some true := by
  cases t with
  | none => rfl
  | some x => cases x <;> rfl

@[simp] theorem or_some (x y : Bool) : or (some x) (some y) = some (x || y) := by
  cases x <;> cases y <;> rfl

@[simp] theorem and_some (x y : Bool) :
    and (some x) (some y) = some (x && y) := by
  cases x <;> cases y <;> rfl

@[simp] theorem holds_some (x : Bool) : holds (some x) = x := by
  cases x <;> rfl

/-- The conjunction of what is not NULL. -/
theorem all_some {α : Type} (f : α → Bool) (l : List α) :
    all (l.map fun a => some (f a)) = some (l.all f) := by
  induction l with
  | nil => rfl
  | cons a rest ih =>
      have step : and (some (f a)) (all (rest.map fun a => some (f a)))
          = some (f a && rest.all f) := by rw [ih, and_some]
      simpa [all] using step

/-- The disjunction of what is not NULL. -/
theorem any_some {α : Type} (f : α → Bool) (l : List α) :
    any (l.map fun a => some (f a)) = some (l.any f) := by
  induction l with
  | nil => rfl
  | cons a rest ih =>
      have step : or (some (f a)) (any (rest.map fun a => some (f a)))
          = some (f a || rest.any f) := by rw [ih, or_some]
      simpa [any] using step

end Truth

/-- The type of a value as a statement names it: a number has one type,
    whether it is whole or not. -/
def Json.typeName : Json → String
  | .null => "null"
  | .bool _ => "boolean"
  | .number _ => "number"
  | .string _ => "string"
  | .array _ => "array"
  | .object _ => "object"

/-- The column of a row that says whether it is active. -/
def Json.activeColumn (row : Json) : Truth :=
  match row.field? "active" with
  | some (.bool x) => some x
  | _ => none

namespace Sql

/-! ## Syntax -/

/-- A comparison of a value, its text or a count with a parameter. -/
inductive Operator where
  | equal
  /-- The text matches a pattern. -/
  | pattern (ignoreCase : Bool)
  | number (comparison : Comparison)
  /-- The length of the text. -/
  | length (comparison : Comparison)
  /-- The number of items. -/
  | items (comparison : Comparison)
  /-- The text holds the words of a search expression. -/
  | search

/-- A condition of a statement.  Parameters are referred to by how many stand
    before them. -/
inductive Condition where
  | const (value : Bool)
  | all (parts : List Condition)
  | any (parts : List Condition)
  | neg (part : Condition)
  | present (path : ValuePath)
  | typeIs (path : ValuePath) (type : String)
  /-- The value is a number without a fraction. -/
  | whole (path : ValuePath)
  | test (operator : Operator) (path : ValuePath) (parameter : Nat)
  /-- The value is one of `count` parameters. -/
  | among (path : ValuePath) (parameter count : Nat)
  | choose (cond yes otherwise : Condition)
  /-- Some member of the value meets the condition, or none does. -/
  | exist (negated : Bool) (path : ValuePath) (members : Members)
      (name : String) (part : Condition)
  /-- Some active contract linked to a row meets the condition. -/
  | linked (parent linkType join : String) (part : Condition)

/-- A comparison as it is written. -/
def Operator.text (parameter : String) (path : ValuePath) : Operator → String
  | equal => "(" ++ path.sql ++ " = " ++ parameter ++ "::jsonb)"
  | pattern ignoreCase =>
      "(" ++ path.textSql ++ (if ignoreCase then " ~* " else " ~ ")
        ++ parameter ++ "::text)"
  | number op =>
      "(" ++ path.sql ++ ")::numeric " ++ op.sql ++ " " ++ parameter
        ++ "::numeric"
  | length op =>
      "(char_length" ++ path.textSql ++ " " ++ op.sql ++ " " ++ parameter
        ++ "::integer)"
  | items op =>
      "jsonb_array_length(" ++ path.sql ++ ") " ++ op.sql ++ " " ++ parameter
        ++ "::integer"
  | search =>
      "(to_tsvector('english', " ++ path.textSql
        ++ ") @@ to_tsquery('english', " ++ parameter ++ "::text))"

namespace Condition

mutual

/-- A condition as it is written. -/
def text (tables : Tables) : Condition → String
  | const x => if x then "true" else "false"
  | all parts => joined " AND " "true" (texts tables parts)
  | any parts => joined " OR " "false" (texts tables parts)
  | neg part => "NOT (" ++ text tables part ++ ")"
  | present p => "(" ++ p.sql ++ " IS NOT NULL)"
  | typeIs p type => "jsonb_typeof(" ++ p.sql ++ ") = '" ++ type ++ "'"
  | whole p => "(" ++ p.sql ++ ")::numeric % 1 = 0"
  | test op p n => op.text (parameter n) p
  | among p n count =>
      "(" ++ p.sql ++ " IN (" ++ joinWith ", " (valueParameters n count) ++ "))"
  | choose cond yes otherwise =>
      "(CASE WHEN " ++ text tables cond ++ " THEN " ++ text tables yes
        ++ " ELSE " ++ text tables otherwise ++ " END)"
  | exist negated p members name part =>
      (if negated then "NOT EXISTS" else "EXISTS") ++ " (SELECT 1 FROM "
        ++ memberRows p.sql (ident name) members ++ " WHERE "
        ++ unknownKey (ident name) members ++ text tables part ++ ")"
  | linked parent linkType join part =>
      linkExists tables parent linkType join (text tables part)

/-- Conditions as they are written. -/
def texts (tables : Tables) : List Condition → List String
  | [] => []
  | c :: rest => text tables c :: texts tables rest

end

theorem texts_eq_map (tables : Tables) (cs : List Condition) :
    texts tables cs = cs.map (text tables) := by
  induction cs with
  | nil => rfl
  | cons c rest ih => rw [texts, ih, List.map_cons]

/-- A choice by type is written as one. -/
theorem text_choose_typeIs (tables : Tables) (p : ValuePath) (type : String)
    (yes otherwise : Condition) :
    (choose (typeIs p type) yes otherwise).text tables
      = whenType p.sql type (yes.text tables) (otherwise.text tables) := by
  show "(CASE WHEN " ++ ("jsonb_typeof(" ++ p.sql ++ ") = '" ++ type ++ "'")
      ++ " THEN " ++ yes.text tables ++ " ELSE " ++ otherwise.text tables
      ++ " END)"
    = "(CASE WHEN jsonb_typeof(" ++ p.sql ++ ") = '" ++ type ++ "' THEN "
      ++ yes.text tables ++ " ELSE " ++ otherwise.text tables ++ " END)"
  rw [← String.toList_inj]
  simp

end Condition

/-! ## Values -/

/-- What a comparison of a value with a parameter comes to.  A parameter of
    another type than asked for is never bound. -/
def Operator.holds [TextLibrary] : Operator → Json → Json → Bool
  | equal, v, w => v.equal w
  | pattern ignoreCase, v, .string source =>
      (Pattern.ofSource? source ignoreCase).any (·.matchesIn v.asText)
  | number op, v, .number n => Filter.boundHolds op n.toDouble v
  | length op, v, .number (.int n) =>
      op.holds (compare (v.asText.length : Int) n)
  | items op, .array values, .number (.int n) =>
      op.holds (compare (values.length : Int) n)
  | search, v, .string expression => Text.matchesTerm v.asText expression
  | _, _, _ => false

namespace Condition

mutual

/-- What a condition comes to, given the linked contracts, the parameters of
    the statement, and the rows and members at hand. -/
def value [TextLibrary] (links : Json → String → List Json) (params : List Json) :
    Condition → Bindings → Truth
  | const x, _ => some x
  | all parts, b => Truth.all (values links params parts b)
  | any parts, b => Truth.any (values links params parts b)
  | neg part, b => (value links params part b).not
  | present p, b => some (b.resolve p).isSome
  | typeIs p type, b => (b.resolve p).map fun v => v.typeName == type
  | whole p, b => (b.resolve p).map JsonType.integer.holds
  | test op p n, b => Truth.strict op.holds (b.resolve p) params[n]?
  | among p n count, b =>
      Truth.any ((List.range count).map fun i =>
        Truth.strict Json.equal (b.resolve p) params[n + i]?)
  | choose cond yes otherwise, b =>
      if (value links params cond b).holds then value links params yes b
      else value links params otherwise b
  | exist negated p members name part, b =>
      -- the rows that the condition on keys leaves
      let rows := ((b.resolve p).bind members.of?).getD []
      some ((rows.any fun v =>
        (value links params part ((name, v) :: b)).holds) != negated)
  | linked parent linkType join part, b =>
      -- the rows that are attached to the parent
      let rows := (b.lookup parent).toList.flatMap fun row => links row linkType
      some (rows.any fun c =>
        (Truth.and c.activeColumn (value links params part ((join, c) :: b))).holds)

/-- What conditions come to. -/
def values [TextLibrary] (links : Json → String → List Json) (params : List Json) :
    List Condition → Bindings → List Truth
  | [], _ => []
  | c :: rest, b => value links params c b :: values links params rest b

end

theorem values_eq_map [TextLibrary] (links : Json → String → List Json)
    (params : List Json) (cs : List Condition) (b : Bindings) :
    values links params cs b = cs.map fun c => c.value links params b := by
  induction cs with
  | nil => rfl
  | cons c rest ih => rw [values, ih, List.map_cons]

end Condition

/-! ## Rows that are active -/

/-- Whether linked rows say if they are active. -/
def Flagged (links : Json → String → List Json) : Prop :=
  ∀ row linkType, ∀ r ∈ links row linkType, r.activeColumn ≠ none

/-- The linked rows that say that they are active. -/
def activeOnly (links : Json → String → List Json) (row : Json) (linkType : String) :
    List Json :=
  (links row linkType).filter fun r => r.activeColumn.holds

theorem holds_activeColumn {r : Json} (h : r.activeColumn ≠ none) :
    r.activeColumn.holds = r.isActive := by
  rw [Json.activeColumn] at h ⊢
  rw [Json.isActive]
  split at h
  · next x hx =>
      rw [hx]
      cases x <;> rfl
  · exact absurd rfl h

theorem isActive_of_holds {r : Json} (h : r.activeColumn.holds = true) :
    r.isActive = true := by
  rw [← holds_activeColumn fun hnone => ?_, h]
  rw [hnone] at h
  cases h

end Sql

end LinkedContracts
