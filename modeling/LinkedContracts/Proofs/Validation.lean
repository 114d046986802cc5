import LinkedContracts.Proofs.Compile.Meaning
import LinkedContracts.Proofs.Stateful
import LinkedContracts.Validation

/-! # What a validation reports

    A filter that fails is broken down along filters that fail: to members of
    conjunctions, and to what stands under a guard, which fails only where the
    guard lets through.  The filters it comes to in the end are those that a
    validation reports, no more and no fewer, and there is always one.

    A branch of a disjunction that was asked for as such is broken down like a
    guarded filter if the other branch looks like a guard.  This makes no
    difference: the disjunction fails only if both branches do. -/

namespace LinkedContracts

namespace Filter

/-- A test that a value is missing, or not of certain types. -/
inductive Guard : Filter → Prop where
  | missing (path : ValuePath) : Guard (.neg (.present path))
  | otherType (path : ValuePath) (types : List JsonType) :
      Guard (.neg (.typeIs path types))

/-- Whether a filter is broken down no further. -/
def isWhole : Filter → Bool
  | conj _ | disj [neg (present _), _] | disj [neg (typeIs _ _), _] => false
  | _ => true

variable {links : Json → String → List Json} {b : Bindings} {f g guard : Filter}
  {fs : List Filter}

/-- A filter that fails comes to another one that fails, through members of
    conjunctions and filters under guards that fail themselves. -/
inductive ComesTo (links : Json → String → List Json) (b : Bindings) :
    Filter → Filter → Prop where
  | itself {f : Filter} (hf : f.answer links b = false) : ComesTo links b f f
  | member {fs : List Filter} {f g : Filter}
      (hfs : (conj fs).answer links b = false) (hmem : f ∈ fs)
      (h : ComesTo links b f g) : ComesTo links b (.conj fs) g
  | guarded {guard f g : Filter} (hguard : guard.Guard)
      (hdisj : (disj [guard, f]).answer links b = false)
      (h : ComesTo links b f g) : ComesTo links b (.disj [guard, f]) g

/-! ## Filters that fail -/

theorem ComesTo.fails (h : f.ComesTo links b g) : f.answer links b = false := by
  cases h with
  | itself hf => exact hf
  | member hfs _ _ => exact hfs
  | guarded _ hdisj _ => exact hdisj

theorem ComesTo.fails_end (h : f.ComesTo links b g) : g.answer links b = false := by
  induction h with
  | itself hf => exact hf
  | member _ _ _ ih => exact ih
  | guarded _ _ _ ih => exact ih

/-- A disjunction that fails has no branch that holds. -/
theorem fails_guarded (h : (disj [guard, f]).answer links b = false) :
    f.answer links b = false := by
  rw [answer_disj, List.any_eq_false] at h
  simpa using h f (by simp)

/-- A conjunction that fails has a member that fails. -/
theorem exists_fails_of_conj (h : (conj fs).answer links b = false) :
    ∃ f ∈ fs, f.answer links b = false := by
  rw [answer_conj, List.all_eq_false] at h
  simpa using h

/-! ## Broken down once -/

theorem isWhole_guarded (h : guard.Guard) : (disj [guard, f]).isWhole = false := by
  cases h <;> rfl

theorem comesTo_conj (h : (conj fs).answer links b = false) :
    (conj fs).ComesTo links b g ∧ g.isWhole = true
      ↔ ∃ f ∈ fs, f.ComesTo links b g ∧ g.isWhole = true := by
  constructor
  · rintro ⟨hg, hwhole⟩
    cases hg with
    | itself _ => cases hwhole
    | member _ hmem hfg => exact ⟨_, hmem, hfg, hwhole⟩
  · rintro ⟨f, hmem, hfg, hwhole⟩
    exact ⟨.member h hmem hfg, hwhole⟩

theorem comesTo_guarded (hguard : guard.Guard)
    (h : (disj [guard, f]).answer links b = false) :
    (disj [guard, f]).ComesTo links b g ∧ g.isWhole = true
      ↔ f.ComesTo links b g ∧ g.isWhole = true := by
  constructor
  · rintro ⟨hg, hwhole⟩
    cases hg with
    | itself _ =>
        rw [isWhole_guarded hguard] at hwhole
        cases hwhole
    | guarded _ _ hfg => exact ⟨hfg, hwhole⟩
  · rintro ⟨hfg, hwhole⟩
    exact ⟨.guarded hguard h hfg, hwhole⟩

theorem comesTo_whole (hf : f.isWhole = true) (h : f.answer links b = false) :
    f.ComesTo links b g ∧ g.isWhole = true ↔ g = f := by
  constructor
  · rintro ⟨hg, -⟩
    cases hg with
    | itself _ => rfl
    | member _ _ _ => cases hf
    | guarded hguard _ _ =>
        rw [isWhole_guarded hguard] at hf
        cases hf
  · rintro rfl
    exact ⟨.itself h, hf⟩

/-! ## Broken down to the end -/

/-- What passes from members to conjunctions and from filters under guards to
    guarded ones, and holds of what is broken down no further, holds of all
    filters. -/
theorem breakdown {P : Filter → Prop} (hconj : ∀ fs, (∀ f ∈ fs, P f) → P (conj fs))
    (hguarded : ∀ guard f, guard.Guard → P f → P (disj [guard, f]))
    (hwhole : ∀ f, f.isWhole = true → P f) (f : Filter) : P f := by
  -- A list of filters is broken down to what holds of each of its members.
  refine failures.induct P (fun fs => ∀ f ∈ fs, P f) hconj ?missing ?otherType ?whole
    ?nil ?cons f
  case missing =>
    intro path f ih
    exact hguarded _ f (.missing path) ih
  case otherType =>
    intro path types f ih
    exact hguarded _ f (.otherType path types) ih
  case whole =>
    intro f hconj hmissing htype
    refine hwhole f ?_
    rw [isWhole]
    · exact hconj
    · exact hmissing
    · exact htype
  case nil =>
    intro f hf
    contradiction
  case cons =>
    intro f rest ihrest ih g hg
    rcases List.mem_cons.mp hg with rfl | hg
    · exact ih
    · exact ihrest g hg

/-- A filter that fails comes to one that is broken down no further. -/
theorem exists_comesTo (h : f.answer links b = false) :
    ∃ g, f.ComesTo links b g ∧ g.isWhole = true := by
  induction f using breakdown with
  | hconj fs ih =>
      obtain ⟨f, hmem, hf⟩ := exists_fails_of_conj h
      obtain ⟨g, hg⟩ := ih f hmem hf
      exact ⟨g, (comesTo_conj h).mpr ⟨f, hmem, hg⟩⟩
  | hguarded guard f hguard ih =>
      obtain ⟨g, hg⟩ := ih (fails_guarded h)
      exact ⟨g, (comesTo_guarded hguard h).mpr hg⟩
  | hwhole f hf => exact ⟨f, (comesTo_whole hf h).mpr rfl⟩

/-- The test of a filter, which its answer decides. -/
def decided (links : Json → String → List Json) (b : Bindings) (f : Filter) :
    Except Error Bool :=
  .ok (f.answer links b)

theorem failures_guarded (holds : Filter → Except Error Bool) (h : guard.Guard) :
    (disj [guard, f]).failures holds = f.failures holds := by
  cases h <;> rw [failures]

theorem failures_whole (holds : Filter → Except Error Bool) (h : f.isWhole = true) :
    f.failures holds = .ok [f] := by
  rw [failures]
  · rintro fs rfl
    cases h
  · rintro path f rfl
    cases h
  · rintro path types f rfl
    cases h

/-- The failures of several filters are those of the ones that fail. -/
theorem mem_failuresOfAll
    (ih : ∀ f ∈ fs, f.answer links b = false → ∃ gs,
      f.failures (decided links b) = .ok gs
        ∧ ∀ g, g ∈ gs ↔ f.ComesTo links b g ∧ g.isWhole = true) :
    ∃ gs, failuresOfAll (decided links b) fs = .ok gs
      ∧ ∀ g, g ∈ gs ↔ ∃ f ∈ fs, f.ComesTo links b g ∧ g.isWhole = true := by
  induction fs with
  | nil => exact ⟨[], rfl, by simp⟩
  | cons f rest rec =>
      obtain ⟨others, hothers, hmem⟩ := rec fun f hf => ih f (List.mem_cons_of_mem _ hf)
      cases hf : f.answer links b with
      | true =>
          -- A filter that holds is passed over, and comes to nothing.
          have hnone (g : Filter) : ¬f.ComesTo links b g := fun h =>
            Bool.noConfusion (hf.symm.trans h.fails)
          refine ⟨others, ?_, fun g => by simp [hmem, hnone g]⟩
          rw [failuresOfAll, decided, hf, hothers]
          rfl
      | false =>
          obtain ⟨own, hown, hfirst⟩ := ih f List.mem_cons_self hf
          refine ⟨own ++ others, ?_, fun g => by simp [hfirst, hmem]⟩
          rw [failuresOfAll, decided, hf, hown, hothers]
          rfl

/-- The failures of a filter that fails are what it comes to in the end. -/
theorem mem_failures (h : f.answer links b = false) :
    ∃ gs, f.failures (decided links b) = .ok gs
      ∧ ∀ g, g ∈ gs ↔ f.ComesTo links b g ∧ g.isWhole = true := by
  induction f using breakdown with
  | hconj fs ih =>
      obtain ⟨gs, hgs, hmem⟩ := mem_failuresOfAll ih
      refine ⟨gs, by rw [failures, hgs], fun g => ?_⟩
      rw [hmem, comesTo_conj h]
  | hguarded guard f hguard ih =>
      obtain ⟨gs, hgs, hmem⟩ := ih (fails_guarded h)
      refine ⟨gs, by rw [failures_guarded _ hguard, hgs], fun g => ?_⟩
      rw [hmem, comesTo_guarded hguard h]
  | hwhole f hf =>
      refine ⟨[f], failures_whole _ hf, fun g => ?_⟩
      rw [List.mem_singleton, comesTo_whole hf h]

/-! ## Messages -/

/-- A text opens with a character. -/
def Opens (c : Char) (text : String) : Prop := text.toList.head? = some c

theorem Opens.append {c : Char} {s : String} (h : Opens c s) (t : String) :
    Opens c (s ++ t) := by
  rw [Opens, String.toList_append, List.head?_append, h]
  rfl

theorem Opens.ne {c d : Char} {s t : String} (hs : Opens c s) (ht : Opens d t)
    (h : c ≠ d) : s ≠ t := by
  rintro rfl
  exact h (Option.some.inj (hs.symm.trans ht))

/-- A filter that fails and is broken down no further is named by what it asks
    for, other than the filter that always holds, which stands for no constraint
    in particular. -/
theorem complaint_ne_always (hf : f.answer links b = false)
    (hwhole : f.isWhole = true) : f.complaint ≠ always.complaint := by
  have halways : Opens 'C' always.complaint := by
    show Opens 'C' "Contract does not match the schema"
    simp [Opens]
  have hquote : Opens '\'' "'" := by simp [Opens]
  have hrequired : Opens 'R' "Required property '" := by simp [Opens]
  have hlink : Opens 'N' "No matching contract linked through '" := by simp [Opens]
  have quoted {s : String} (h : Opens '\'' s) : s ≠ always.complaint :=
    h.ne halways (by decide)
  cases f with
  | always => cases hf
  | conj fs => cases hwhole
  | never => decide
  | neg f =>
      show "Contract matches a forbidden schema" ≠ "Contract does not match the schema"
      decide
  | disj fs =>
      show "Contract matches none of the alternatives" ≠ "Contract does not match the schema"
      decide
  | present => exact ((hrequired.append _).append _).ne halways (by decide)
  | linked => exact ((hlink.append _).append _).ne halways (by decide)
  | each => exact quoted ((hquote.append _).append _)
  | typeIs | equals | oneOf | pattern =>
      exact quoted (((hquote.append _).append _).append _)
  | fullText => exact quoted ((((hquote.append _).append _).append _).append _)
  | bound => exact quoted (((((hquote.append _).append _).append _).append _).append _)
  | length | itemCount =>
      exact quoted ((((((hquote.append _).append _).append _).append _).append _).append _)

end Filter

/-! ## Reports -/

namespace Validator

open LinkedContracts.Filter

variable {links : Json → String → List Json}

theorem holds_known (contract : Json) :
    holds (.known links) contract = decided links [(scope, contract)] := by
  funext f
  rw [holds, matchContract_known, decided]
  cases f.answer links [(scope, contract)] <;> rfl

/-- A validator of a schema accepts what meets the schema. -/
theorem answer_ofSchema [TextLibrary] {s : Schema} {v : Validator} (h : ofSchema s = .ok v)
    (links : Json → String → List Json) (contract : Json) :
    v.filter.answer links [(scope, contract)] = s.meets links .contract contract := by
  cases hrun : (Schema.compileRow s).run (Plan.start scope) with
  | mk result plan =>
      rw [ofSchema, hrun] at h
      cases result with
      | error e => cases h
      | ok f =>
          obtain rfl := Except.ok.inj h
          exact Schema.answer_compileRow hrun links contract

/-- Where the linked contracts are known, a contract is validated without
    failing.  No error is reported exactly if it is accepted, which it is if it
    meets the schema.  Else the errors name the filters that the filter of the
    schema comes to in the end, each of which fails; there is one, and none of
    them says merely that the contract does not match. -/
theorem reports_failures [TextLibrary] {s : Schema} {v : Validator} (h : ofSchema s = .ok v)
    (links : Json → String → List Json) (contract : Json) :
    ∃ accepted report,
      v.accepts contract (.known links) = .ok accepted
        ∧ v.validate contract (.known links) = .ok report
        ∧ accepted = s.meets links .contract contract
        ∧ (report.errors = [] ↔ accepted = true)
        ∧ (accepted = false →
          (∀ message, message ∈ report.errors ↔
            ∃ f, v.filter.ComesTo links [(scope, contract)] f ∧ f.isWhole = true
              ∧ holds (.known links) contract f = .ok false ∧ message = f.complaint)
          ∧ report.errors ≠ [] ∧ Filter.always.complaint ∉ report.errors) := by
  have haccepts : v.accepts contract (.known links)
      = .ok (v.filter.answer links [(scope, contract)]) := by
    rw [accepts, holds_known]
    rfl
  have hmeets := answer_ofSchema h links contract
  cases hanswer : v.filter.answer links [(scope, contract)] with
  | true =>
      rw [hanswer] at haccepts hmeets
      refine ⟨true, ⟨[], v.warnings⟩, haccepts, ?_, hmeets, by simp [Report.errors], nofun⟩
      rw [validate, haccepts]
      rfl
  | false =>
      rw [hanswer] at haccepts hmeets
      obtain ⟨gs, hgs, hmem⟩ := mem_failures hanswer
      obtain ⟨g, hg⟩ := exists_comesTo hanswer
      have hne : gs ≠ [] := List.ne_nil_of_mem ((hmem g).mpr hg)
      have herrors : (⟨gs, v.warnings⟩ : Report).errors ≠ [] := by
        simpa [Report.errors] using hne
      refine ⟨false, ⟨gs, v.warnings⟩, haccepts, ?_, hmeets,
        by simpa using herrors, fun _ => ⟨fun message => ?_, herrors, ?_⟩⟩
      · rw [validate, haccepts, holds_known, hgs]
        simp [bind, Except.bind, pure, Except.pure, hne]
      · rw [Report.errors, List.mem_map]
        constructor
        · rintro ⟨f, hf, rfl⟩
          obtain ⟨hcomes, hwhole⟩ := (hmem f).mp hf
          refine ⟨f, hcomes, hwhole, ?_, rfl⟩
          rw [holds_known, decided, hcomes.fails_end]
        · rintro ⟨f, hcomes, hwhole, -, rfl⟩
          exact ⟨f, (hmem f).mpr ⟨hcomes, hwhole⟩, rfl⟩
      · intro halways
        obtain ⟨f, hf, heq⟩ := List.mem_map.mp halways
        obtain ⟨hcomes, hwhole⟩ := (hmem f).mp hf
        exact complaint_ne_always hcomes.fails_end hwhole heq

/-- The data of an account has an email, an age of no less than zero, and,
    if it is an object, a phone number. -/
def accountSchema : Schema := .node
  { properties := some [("data", .node
      { required := some ["email"]
        properties := some [("age", .node { minimum := some (.ofInt 0) })]
        anyOf := some
          [.node { not := some (.node { types := some (.single .object) }) },
           .node { required := some ["phone"] }] })] }

/-- An account with a negative age. -/
def account : Json :=
  .object [("data", .object [("age", .number (.int (-1)))])]

/-- Filters are found below guards of properties and types, and below a branch
    that was asked for and looks like one. -/
theorem reports_failures_account :
    ∃ v report, ofSchema accountSchema = .ok v
      ∧ v.validate account (.known fun _ _ => []) = .ok report
      ∧ report.errors = ["Required property '/data/email' is missing",
          "'/data/age' must be at least 0", "Required property '/data/phone' is missing"]
      ∧ (∀ message ∈ report.errors, ∃ f,
          v.filter.ComesTo (fun _ _ => []) [(scope, account)] f ∧ f.isWhole = true
            ∧ holds (.known fun _ _ => []) account f = .ok false ∧ message = f.complaint)
      ∧ Filter.always.complaint ∉ report.errors := by
  obtain ⟨v, h⟩ : ∃ v, ofSchema accountSchema = .ok v := ⟨_, rfl⟩
  obtain ⟨accepted, report, -, hvalidate, hmeets, -, hfailed⟩ :=
    reports_failures h (fun _ _ => []) account
  have hrefused : accountSchema.meets (fun _ _ => []) .contract account = false := by
    decide +kernel
  obtain ⟨hmem, -, halways⟩ := hfailed (hmeets.trans hrefused)
  have hmessages : (do
      let v ← ofSchema accountSchema
      let report ← v.validate account (.known fun _ _ => [])
      return report.errors : Except Error (List String)).toOption
      = some ["Required property '/data/email' is missing",
          "'/data/age' must be at least 0", "Required property '/data/phone' is missing"] := by
    decide +kernel
  simp only [h, hvalidate, bind, Except.bind] at hmessages
  exact ⟨v, report, h, hvalidate, Option.some.inj hmessages,
    fun message => (hmem message).mp, halways⟩

end Validator

end LinkedContracts
