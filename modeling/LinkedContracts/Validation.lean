import LinkedContracts.Compile
import LinkedContracts.Filter.Eval
import LinkedContracts.Numeric.Shortest

/-! # Validation

    A contract is valid if it meets the filter its schema compiles to.  If
    it does not, the constraints that failed are those the filter breaks
    down to: the failing members of conjunctions, and what conditions on a
    property or type guard.

    Warnings are about the schema alone: parts of it that do not constrain
    what they seem to. -/

namespace LinkedContracts

variable [TextLibrary]

/-! ## Wording -/

/-- A path in messages. -/
def ValuePath.display (p : ValuePath) : String :=
  "/" ++ joinWith "/" p.keys

/-- A comparison in messages. -/
def Comparison.words : Comparison → String
  | less => "less than"
  | atMost => "at most"
  | greater => "greater than"
  | atLeast => "at least"

/-- The message for a constraint that failed. -/
def Filter.complaint : Filter → String
  | never => "Contract is rejected by the schema"
  | present p => "Required property '" ++ p.display ++ "' is missing"
  | typeIs p types =>
      "'" ++ p.display ++ "' must be of type "
        ++ joinWith " or " (types.map JsonType.name)
  | equals p value => "'" ++ p.display ++ "' must be equal to " ++ value.render
  | oneOf p values =>
      "'" ++ p.display ++ "' must be one of "
        ++ joinWith ", " (values.map Json.render)
  | pattern p re => "'" ++ p.display ++ "' must match the pattern " ++ re.source
  | bound p op value =>
      "'" ++ p.display ++ "' must be " ++ op.words ++ " "
        ++ String.ofList (Binary64.boundText value)
  | length p op value =>
      "'" ++ p.display ++ "' must be " ++ op.words ++ " " ++ toString value
        ++ " characters long"
  | itemCount p op value =>
      "'" ++ p.display ++ "' must have " ++ op.words ++ " " ++ toString value
        ++ " items"
  | fullText p term => "'" ++ p.display ++ "' must contain \"" ++ term ++ "\""
  | each p .. => "'" ++ p.display ++ "' has members that do not match"
  | linked _ linkType _ _ =>
      "No matching contract linked through '" ++ linkType ++ "'"
  | neg _ => "Contract matches a forbidden schema"
  | disj _ => "Contract matches none of the alternatives"
  | always | conj _ => "Contract does not match the schema"

/-! ## Warnings -/

/-- A part of a schema that does not constrain what it seems to. -/
inductive SchemaWarning where
  | unknownFormat (format location : String)
  | otherPropertiesOfContract

/-- The wording of a warning. -/
def SchemaWarning.message : SchemaWarning → String
  | unknownFormat format location =>
      "Unsupported format '" ++ format ++ "' at '" ++ location ++ "' is ignored"
  | otherPropertiesOfContract =>
      "additionalProperties on a contract is only used for permissions"

namespace Schema

/-- The warnings about the keywords of one schema. -/
def ownWarnings (kw : Keywords Schema) (location : String) (row : Bool) :
    List SchemaWarning :=
  (match kw.format with
    | some f =>
        if (formatPattern? f).isSome then []
        else [.unknownFormat f (if location.isEmpty then "/" else location)]
    | none => [])
  ++ (if row && kw.additionalProperties.isSome then [.otherPropertiesOfContract]
    else [])

mutual

/-- The warnings about a schema; `row` says whether it is about a whole
    contract. -/
def warnings : Schema → String → Bool → List SchemaWarning
  | .bool _, _, _ => []
  | .node kw, location, row =>
      ownWarnings kw location row
        ++ propertyWarnings kw.properties location
        ++ branchWarnings kw.allOf location row
        ++ branchWarnings kw.anyOf location row
        ++ oneWarnings kw.not location row
        ++ oneWarnings kw.items (location ++ "/*") false
        ++ oneWarnings kw.contains (location ++ "/*") false

/-- The warnings about a schema that may be missing. -/
def oneWarnings : Option Schema → String → Bool → List SchemaWarning
  | none, _, _ => []
  | some s, location, row => warnings s location row

/-- The warnings about properties, which may be missing. -/
def propertyWarnings :
    Option (List (String × Schema)) → String → List SchemaWarning
  | none, _ => []
  | some fields, location => fieldWarnings fields location

/-- The warnings about the properties of a list. -/
def fieldWarnings : List (String × Schema) → String → List SchemaWarning
  | [], _ => []
  | (name, s) :: rest, location =>
      warnings s (location ++ "/" ++ name) false ++ fieldWarnings rest location

/-- The warnings about branches, which may be missing. -/
def branchWarnings : Option (List Schema) → String → Bool → List SchemaWarning
  | none, _, _ => []
  | some branches, location, row => allWarnings branches location row

/-- The warnings about the schemas of a list. -/
def allWarnings : List Schema → String → Bool → List SchemaWarning
  | [], _, _ => []
  | s :: rest, location, row =>
      warnings s location row ++ allWarnings rest location row

end

end Schema

/-! ## Failed constraints -/

namespace Filter

mutual

/-- The constraints that failed, given a filter that failed.  What a
    condition on a property or type guards is looked into. -/
def failures (holds : Filter → Except Error Bool) :
    Filter → Except Error (List Filter)
  | conj fs => failuresOfAll holds fs
  | disj [neg (present _), f] => failures holds f
  | disj [neg (typeIs _ _), f] => failures holds f
  | f => .ok [f]

/-- The constraints that failed, of the members that failed. -/
def failuresOfAll (holds : Filter → Except Error Bool) :
    List Filter → Except Error (List Filter)
  | [] => .ok []
  | f :: rest => do
      let fine ← holds f
      let own ← if fine then .ok [] else failures holds f
      let others ← failuresOfAll holds rest
      return own ++ others

end

end Filter

/-! ## Validators -/

/-- A schema compiled to validate contracts. -/
structure Validator where
  filter : Filter
  warnings : List SchemaWarning

/-- The outcome of a validation: the constraints that failed. -/
structure Report where
  failures : List Filter
  warnings : List SchemaWarning

/-- Whether a contract passed. -/
def Report.passed (r : Report) : Bool := r.failures.isEmpty

/-- The messages for the constraints that failed. -/
def Report.errors (r : Report) : List String := r.failures.map Filter.complaint

namespace Validator

/-- The name the contract is bound to. -/
def scope : String := "contract"

/-- Compile a schema. -/
def ofSchema (schema : Schema) : Except Error Validator :=
  ((Schema.compileRow schema).run (Plan.start scope)).1.map fun filter =>
    ⟨filter, schema.warnings "" true⟩

/-- Whether a filter holds of a contract. -/
def holds (source : LinkSource) (contract : Json) (f : Filter) :
    Except Error Bool :=
  (f.matchContract source scope contract).map Option.isSome

/-- Whether a contract is valid. -/
def accepts (v : Validator) (contract : Json) (source : LinkSource) :
    Except Error Bool :=
  holds source contract v.filter

/-- Validate a contract. -/
def validate (v : Validator) (contract : Json) (source : LinkSource) :
    Except Error Report := do
  if ← v.accepts contract source then return ⟨[], v.warnings⟩
  else
    let failures ← v.filter.failures (holds source contract)
    return ⟨if failures.isEmpty then [.always] else failures, v.warnings⟩

end Validator

/-- Check that a contract is valid. -/
def Schema.check (schema : Schema) (contract : Json) (source : LinkSource) :
    Except Error Unit := do
  let v ← Validator.ofSchema schema
  let report ← v.validate contract source
  if report.passed then return ()
  else .error (.mismatch report.errors)

end LinkedContracts
