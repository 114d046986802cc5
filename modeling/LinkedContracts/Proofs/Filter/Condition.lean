import LinkedContracts.Proofs.Sql.Condition

/-! # The condition of a filter

    What a filter is rendered as is the text of a condition: `condition`
    gives its syntax and `parameters` what it refers to.  The condition
    depends on how many parameters stand before it, and the parameters on
    nothing. -/

namespace LinkedContracts

namespace Filter

open Sql

mutual

/-- The parameters of a filter. -/
def parameters : Filter → List Json
  | conj fs | disj fs => parametersAll fs
  | neg f | each _ _ _ _ f | linked _ _ _ f => parameters f
  | equals _ value => [value]
  | oneOf _ values => values
  | pattern _ re => [.string re.source]
  | bound _ _ value => [.number (.double value)]
  | length _ _ value | itemCount _ _ value => [.ofNat value]
  | fullText _ term => [.string (Text.searchExpression term)]
  | always | never | present _ | typeIs _ _ => []

/-- The parameters of filters. -/
def parametersAll : List Filter → List Json
  | [] => []
  | f :: rest => parameters f ++ parametersAll rest

end

/-- The test of a type.  An integer is a number without a fraction. -/
def typeCondition (p : ValuePath) : JsonType → Condition
  | .integer => .choose (.typeIs p "number") (.whole p) (.const false)
  | type => .typeIs p type.name

/-- The condition on all or some members, given the condition on one. -/
def memberCondition (p : ValuePath) (members : Members)
    (quantifier : Quantifier) (name : String) (part : Condition) : Condition :=
  match quantifier with
  | .all => .choose (.typeIs p (memberType members))
      (.exist true p members name (.neg part)) (.const true)
  | .some => .choose (.typeIs p (memberType members))
      (.exist false p members name part) (.const false)

mutual

/-- The condition a filter is rendered as, after `n` parameters. -/
def condition : Filter → Nat → Condition
  | always, _ => .const true
  | never, _ => .const false
  | conj fs, n => .all (conditions fs n)
  | disj fs, n => .any (conditions fs n)
  | neg f, n => .neg (condition f n)
  | present p, _ => .present p
  | typeIs p types, _ => .any (types.map (typeCondition p))
  | equals p _, n => .test .equal p n
  | oneOf _ [], _ => .const false
  | oneOf p values, n => .among p n values.length
  | pattern p re, n => .test (.pattern re.ignoresCase) p n
  | bound p op _, n =>
      .choose (.typeIs p "number") (.test (.number op) p n) (.const false)
  | length p op _, n => .test (.length op) p n
  | itemCount p op _, n =>
      .choose (.typeIs p "array") (.test (.items op) p n) (.const false)
  | fullText p _, n => .test .search p n
  | each p members quantifier name f, n =>
      memberCondition p members quantifier name (condition f n)
  | linked parent linkType join f, n =>
      .linked parent linkType join (condition f n)

/-- The conditions filters are rendered as, after `n` parameters. -/
def conditions : List Filter → Nat → List Condition
  | [], _ => []
  | f :: rest, n =>
      condition f n :: conditions rest (n + (parameters f).length)

end

/-! ## Text -/

/-- The test of several types is written as one of several conditions. -/
theorem text_typeConditions (tables : Tables) (p : ValuePath)
    (types : List JsonType) :
    (Condition.any (types.map (typeCondition p))).text tables
      = typeTests p.sql types := by
  have one (type : JsonType) :
      (typeCondition p type).text tables = typeTest p.sql type := by
    cases type with
    | integer => exact Condition.text_choose_typeIs _ _ _ _ _
    | _ => rfl
  have every : Condition.texts tables (types.map (typeCondition p))
      = types.map (typeTest p.sql) := by
    rw [Condition.texts_eq_map, List.map_map]
    exact List.map_congr_left fun type _ => one type
  show joined " OR " "false" (Condition.texts tables _) = _
  rw [every]
  cases types <;> rfl

/-- The condition on members is written as one. -/
theorem text_memberCondition (tables : Tables) (p : ValuePath)
    (members : Members) (quantifier : Quantifier) (name : String)
    (part : Condition) :
    (memberCondition p members quantifier name part).text tables
      = quantified p.sql (ident name) members quantifier (part.text tables) := by
  cases quantifier with
  | all => exact Condition.text_choose_typeIs _ _ _ _ _
  | some => exact Condition.text_choose_typeIs _ _ _ _ _

mutual

/-- A filter is rendered as the text of its condition. -/
theorem render_eq (tables : Tables) : ∀ (f : Filter) (n : Nat),
    f.render tables n = ((f.condition n).text tables, f.parameters)
  | always, _ | never, _ | present _, _ | equals _ _, _ | oneOf _ [], _
  | oneOf _ (_ :: _), _ | pattern _ _, _ | length _ _ _, _
  | fullText _ _, _ => rfl
  | conj fs, n => by
      show (let (parts, params) := renderAll tables fs n
        (Sql.joined " AND " "true" parts, params)) = _
      rw [renderAll_eq tables fs n]
      rfl
  | disj fs, n => by
      show (let (parts, params) := renderAll tables fs n
        (Sql.joined " OR " "false" parts, params)) = _
      rw [renderAll_eq tables fs n]
      rfl
  | neg f, n => by
      show (let (condition, params) := render tables f n
        ("NOT (" ++ condition ++ ")", params)) = _
      rw [render_eq tables f n]
      rfl
  | typeIs p types, _ =>
      Prod.ext (text_typeConditions tables p types).symm rfl
  | bound p op _, n =>
      Prod.ext (Condition.text_choose_typeIs tables p "number"
        (.test (.number op) p n) (.const false)).symm rfl
  | itemCount p op _, n =>
      Prod.ext (Condition.text_choose_typeIs tables p "array"
        (.test (.items op) p n) (.const false)).symm rfl
  | each p members quantifier name f, n => by
      show (let (condition, params) := render tables f n
        (quantified p.sql (ident name) members quantifier condition, params)) = _
      rw [render_eq tables f n]
      exact Prod.ext (text_memberCondition tables p members quantifier name
        (f.condition n)).symm rfl
  | linked parent linkType join f, n => by
      show (let (condition, params) := render tables f n
        (linkExists tables parent linkType join condition, params)) = _
      rw [render_eq tables f n]
      rfl

/-- Filters are rendered as the texts of their conditions. -/
theorem renderAll_eq (tables : Tables) : ∀ (fs : List Filter) (n : Nat),
    renderAll tables fs n
      = (Condition.texts tables (conditions fs n), parametersAll fs)
  | [], _ => rfl
  | f :: rest, n => by
      show (let (part, params) := render tables f n
        let (parts, more) := renderAll tables rest (n + params.length)
        (part :: parts, params ++ more)) = _
      rw [render_eq tables f n]
      show (let (parts, more) := renderAll tables rest (n + f.parameters.length)
        ((f.condition n).text tables :: parts, f.parameters ++ more)) = _
      rw [renderAll_eq tables rest]
      rfl

end

end Filter

end LinkedContracts
