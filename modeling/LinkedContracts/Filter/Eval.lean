import LinkedContracts.Error
import LinkedContracts.Filter
import LinkedContracts.Text.Words

/-! # Filters evaluated on contracts

    `eval` decides a filter on values bound to names.  Besides the answer it
    collects the linked contracts that met their filters, as the joins of a
    statement would return them.  No branch is skipped, even when the answer
    is settled; what is found under a negation is dropped. -/

namespace LinkedContracts

/-- The contracts linked to a contract under a link type. -/
abbrev LinkSource := Json → String → Except Error (List Json)

/-- A linked contract that met its filter, with the join it belongs to and
    the id of the contract it is linked to. -/
structure LinkMatch where
  joined : String
  parent : String
  contract : Json

namespace LinkMatch

/-- Whether two values that may be missing are the same. -/
def sameId : Option Json → Option Json → Bool
  | none, none => true
  | some a, some b => Json.same a b
  | _, _ => false

/-- Whether two matches are of one contract in one place. -/
def agrees (a b : LinkMatch) : Bool :=
  a.joined == b.joined && a.parent == b.parent
    && sameId (a.contract.field? "id") (b.contract.field? "id")

/-- Add a match that is new. -/
def record (found : List LinkMatch) (m : LinkMatch) : List LinkMatch :=
  if found.any (agrees m) then found else found ++ [m]

/-- Add the matches that are new. -/
def recordAll (found new : List LinkMatch) : List LinkMatch :=
  new.foldl record found

end LinkMatch

/-- The answer of a filter and the linked contracts that met theirs. -/
structure Outcome where
  holds : Bool
  found : List LinkMatch

namespace Outcome

/-- An answer that found nothing. -/
def plain (holds : Bool) : Outcome := ⟨holds, []⟩

/-- The matches of several outcomes. -/
def foundAll (outcomes : List Outcome) : List LinkMatch :=
  outcomes.foldl (fun found o => LinkMatch.recordAll found o.found) []

/-- The outcome when all have to hold. -/
def all (outcomes : List Outcome) : Outcome :=
  ⟨outcomes.all Outcome.holds, foundAll outcomes⟩

/-- The outcome when one has to hold. -/
def any (outcomes : List Outcome) : Outcome :=
  ⟨outcomes.any Outcome.holds, foundAll outcomes⟩

end Outcome

/-- Values bound to names, the innermost first. -/
abbrev Bindings := List (String × Json)

/-- The value at a path. -/
def Bindings.resolve (b : Bindings) (p : ValuePath) : Option Json :=
  (b.lookup p.scope.name).bind p.resolve

/-- The text of a value: a string is its own text. -/
def Json.asText : Json → String
  | .string s => s
  | other => other.render

/-- The members of a value, if it has such members. -/
def Members.of? : Members → Json → Option (List Json)
  | .items, .array values => some values
  | .others known, .object fields =>
      some ((fields.filter fun (k, _) => k ∉ known).map (·.2))
  | _, _ => none

/-- Whether a contract is not marked as inactive. -/
def Json.isActive (contract : Json) : Bool :=
  match contract.field? "active" with
  | some (.bool false) => false
  | _ => true

namespace Filter

/-- Whether there is a value at a path that passes a test. -/
def test (b : Bindings) (p : ValuePath) (holds : Json → Bool) : Outcome :=
  .plain ((b.resolve p).any holds)

/-- Whether a number is in a bound. -/
def boundHolds (op : Comparison) (value : Binary64) : Json → Bool
  | .number n => op.holds (Binary64.cmp n.toDouble value)
  | _ => false

/-- Whether an array has that many items. -/
def itemCountHolds (op : Comparison) (value : Nat) : Json → Bool
  | .array items => op.holds (compare items.length value)
  | _ => false

/-- The id of a row; empty if it has none. -/
def rowId (row : Json) : String := (row.stringField? "id").getD ""

/-- The outcome of a link: the candidates that meet the filter are found,
    and with each what was found below it. -/
def linkOutcome (joined : String) (parent : Json)
    (outcomes : List (Json × Outcome)) : Outcome :=
  let met := outcomes.filter fun (_, o) => o.holds
  ⟨!met.isEmpty,
   met.foldl (fun found (contract, o) =>
     LinkMatch.recordAll (LinkMatch.record found
       ⟨joined, rowId parent, contract⟩) o.found) []⟩

mutual

/-- Decide a filter. -/
def eval (source : LinkSource) : Filter → Bindings → Except Error Outcome
  | always, _ => .ok (.plain true)
  | never, _ => .ok (.plain false)
  | conj fs, b => (evalAll source fs b).map Outcome.all
  | disj fs, b => (evalAll source fs b).map Outcome.any
  | neg f, b => (eval source f b).map fun o => .plain (!o.holds)
  | present p, b => .ok (test b p fun _ => true)
  | typeIs p types, b => .ok (test b p fun v => types.any (·.holds v))
  | equals p value, b => .ok (test b p (·.equal value))
  | oneOf p values, b => .ok (test b p fun v => values.any v.equal)
  | pattern p re, b => .ok (test b p fun v => re.matchesIn v.asText)
  | bound p op value, b => .ok (test b p (boundHolds op value))
  | length p op value, b =>
      .ok (test b p fun v => op.holds (compare v.asText.length value))
  | itemCount p op value, b => .ok (test b p (itemCountHolds op value))
  | fullText p term, b => .ok (test b p fun v => Text.matchesTerm v.asText term)
  | each p members quantifier name f, b =>
      match (b.resolve p).bind members.of? with
      | none => .ok (.plain (quantifier == .all))
      | some values => do
          let outcomes ← values.mapM fun v => eval source f ((name, v) :: b)
          match quantifier with
          | .all => .ok (.all outcomes)
          | .some => .ok (.any outcomes)
  | linked parent linkType joined f, b =>
      match b.lookup parent with
      | none => .ok (.plain false)
      | some row => do
          let candidates : List Json ← source row linkType
          let outcomes ← (candidates.filter Json.isActive).mapM fun c =>
            (eval source f ((joined, c) :: b)).map (c, ·)
          .ok (linkOutcome joined row outcomes)

/-- Decide every filter of a list. -/
def evalAll (source : LinkSource) :
    List Filter → Bindings → Except Error (List Outcome)
  | [], _ => .ok []
  | f :: rest, b => do
      let o ← eval source f b
      let os ← evalAll source rest b
      .ok (o :: os)

end

/-- Decide a filter on one contract bound to a name: the linked contracts
    found, unless the filter fails. -/
def matchContract (f : Filter) (source : LinkSource) (name : String)
    (contract : Json) : Except Error (Option (List LinkMatch)) :=
  (f.eval source [(name, contract)]).map fun o =>
    if o.holds then some o.found else none

end Filter

end LinkedContracts
