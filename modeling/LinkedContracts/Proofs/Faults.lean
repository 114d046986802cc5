import LinkedContracts.Patch
import LinkedContracts.Proofs.Compile.Planning
import LinkedContracts.Proofs.Filter.Answer
import LinkedContracts.Schema.Document
import LinkedContracts.Store.Write
import LinkedContracts.Validation

/-! # The kinds of errors

    Each step of an operation fails with errors of a few kinds only: schemas
    that are read and compiled with compile errors, checks with mismatches
    besides, and patches with mismatches and invalid patches. -/

namespace LinkedContracts

/-- Whether all errors of an outcome are of some kinds. -/
def FailsAs {α : Type} (kinds : List ErrorKind) (x : Except Error α) : Prop :=
  ∀ e, x = .error e → e.kind ∈ kinds

namespace FailsAs

variable {α β : Type} {kinds more : List ErrorKind} {x : Except Error α}

theorem ok (a : α) : FailsAs kinds (.ok a) := fun _ h => by cases h

theorem error {e : Error} (h : e.kind ∈ kinds) :
    FailsAs kinds (.error e : Except Error α) := by
  intro e' he
  cases he
  exact h

theorem mono (h : FailsAs kinds x) (hsub : kinds ⊆ more) : FailsAs more x :=
  fun e he => hsub (h e he)

theorem bind {g : α → Except Error β} (hx : FailsAs kinds x)
    (hg : ∀ a, FailsAs kinds (g a)) : FailsAs kinds (x >>= g) := by
  intro e he
  cases x with
  | error fault =>
      cases he
      exact hx _ rfl
  | ok a => exact hg a e he

theorem map {g : α → β} (hx : FailsAs kinds x) : FailsAs kinds (x.map g) := by
  intro e he
  cases x with
  | error fault =>
      cases he
      exact hx _ rfl
  | ok a => cases he

/-- Steps that all fail alike, one after another. -/
theorem foldlM {f : β → α → Except Error β} (h : ∀ b a, FailsAs kinds (f b a))
    (l : List α) (b : β) : FailsAs kinds (l.foldlM f b) := by
  induction l generalizing b with
  | nil => exact .ok b
  | cons a rest ih => exact (h b a).bind fun b => ih b

end FailsAs

/-! ## Schemas -/

namespace Schema

theorem ofJson_failsAs (j : Json) : FailsAs [.compile] (ofJson j) := by
  rw [ofJson.eq_def]
  split
  · split
    · exact .ok _
    · exact .error (by decide)
  · split
    · exact .ok _
    · exact .error (by decide)
  · exact .error (by simp [Error.kind])

theorem patternFilter_failsAs [TextLibrary] (path : ValuePath) (source : String)
    (ignoreCase : Bool) : FailsAs [.compile] (patternFilter path source ignoreCase) := by
  rw [patternFilter]
  split
  · exact .ok _
  · exact .error (by decide)

theorem forEach_failsAs {α : Type} (value : Option α) {f : α → Except Error Filter}
    (h : ∀ a, FailsAs [.compile] (f a)) : FailsAs [.compile] (forEach value f) := by
  cases value with
  | none => exact .ok _
  | some a => exact (h a).map

theorem stringFilters_failsAs [TextLibrary] (kw : Keywords Schema) (path : ValuePath) :
    FailsAs [.compile] (stringFilters kw path) :=
  .bind (forEach_failsAs _ fun _ => patternFilter_failsAs _ _ _) fun _ =>
    .bind (forEach_failsAs _ fun _ => patternFilter_failsAs _ _ _) fun _ =>
      .bind (forEach_failsAs _ fun _ => patternFilter_failsAs _ _ _) fun _ => .ok _

end Schema

/-- Steps of planning fail with compile errors. -/
theorem Plan.failsAs_closed [TextLibrary] :
    Plan.Closed fun _ x => ∀ p, FailsAs [.compile] (x.run p).1 where
  pure a _ := .ok a
  get p := .ok p
  bind {α β x g} hx hg p := by
    rw [Stateful.run_bind]
    have hp := hx p
    cases hr : x.run p with
    | mk result q =>
        rw [hr] at hp
        cases result with
        | error e => exact .error (hp e rfl)
        | ok a => exact hg a q
  strings kw path _ := Schema.stringFilters_failsAs kw path
  misplaced keys _ := .error (by simp [Error.kind])
  freshMember p := .ok _
  addLink linkType step hstep p := by
    rw [Plan.run_addLink]
    have hp := hstep (p.inside linkType)
    cases hr : step.run (p.inside linkType) with
    | mk result q =>
        rw [hr] at hp
        cases result with
        | error e => exact .error (hp e rfl)
        | ok f => exact .ok _

theorem Validator.ofSchema_failsAs [TextLibrary] (s : Schema) : FailsAs [.compile] (ofSchema s) :=
  (Schema.compile_closed Plan.failsAs_closed s _ _).map

/-! ## Checks -/

/-- Looking for the constraints that failed fails where testing one does. -/
theorem Filter.failures_failsAs {kinds : List ErrorKind}
    {holds : Filter → Except Error Bool} (h : ∀ f, FailsAs kinds (holds f))
    (f : Filter) : FailsAs kinds (f.failures holds) := by
  induction f using Filter.failures.induct
    (motive_2 := fun fs => FailsAs kinds (failuresOfAll holds fs)) with
  | case1 fs ih => rwa [failures]
  | case2 path f ih => rwa [failures]
  | case3 path types f ih => rwa [failures]
  | case4 f hconj hpresent htype =>
      rw [failures]
      · exact .ok _
      · exact hconj
      · exact hpresent
      · exact htype
  | case5 =>
      rw [failuresOfAll]
      exact .ok _
  | case6 f rest ihrest ih =>
      rw [failuresOfAll]
      refine .bind (h f) fun fine => ?_
      cases fine with
      | true => exact .bind (.ok []) fun own => .bind ihrest fun others => .ok _
      | false => exact .bind ih fun own => .bind ihrest fun others => .ok _

/-- A check against known links fails with compile errors and mismatches. -/
theorem Schema.check_failsAs [TextLibrary] (s : Schema) (contract : Json)
    (links : Json → String → List Json) :
    FailsAs [.compile, .schemaMismatch] (s.check contract (.known links)) := by
  have holds (f : Filter) : FailsAs [.compile, .schemaMismatch]
      (Validator.holds (.known links) contract f) := by
    rw [Validator.holds, Filter.matchContract_known]
    exact .ok _
  rw [Schema.check]
  refine .bind ((Validator.ofSchema_failsAs s).mono (by simp)) fun v =>
    .bind (.bind (holds v.filter) fun accepted => ?_) fun report => ?_
  · cases accepted with
    | true => exact .ok _
    | false => exact .bind (Filter.failures_failsAs holds v.filter) fun fs => .ok _
  · split
    · exact .ok _
    · exact .error (by simp [Error.kind])

/-! ## Patches -/

namespace Patch

theorem checkSource_failsAs (slug : String) (doc : Json) (op : PatchOperation) :
    FailsAs [.schemaMismatch, .invalidPatch] (checkSource slug doc op) := by
  rw [checkSource.eq_def]
  split
  · exact .ok _
  split
  · exact .error (by simp [Error.kind])
  split
  · exact .ok _
  · exact .error (by simp [Error.kind])

theorem step_failsAs (slug : String) (doc : Json) (op : PatchOperation) :
    FailsAs [.schemaMismatch, .invalidPatch] (step slug doc op) := by
  rw [step]
  split
  · exact .ok _
  refine .bind (checkSource_failsAs slug doc op) fun _ => ?_
  split
  · exact .ok _
  · exact .error (by simp [Error.kind])

/-- A patch fails with mismatches and invalid patches. -/
theorem apply_failsAs (contract : Json) (operations : List PatchOperation) :
    FailsAs [.schemaMismatch, .invalidPatch] (apply contract operations) :=
  .foldlM (step_failsAs _) operations contract

end Patch

/-! ## Contracts -/

namespace Contract

theorem parsedVersion_failsAs (c : Contract) : FailsAs [.invalidVersion] c.parsedVersion := by
  rw [parsedVersion, Version.parse]
  split
  · exact .ok _
  · exact .error (by simp [Error.kind])

theorem checkIdentity_failsAs (c : Contract) :
    FailsAs [.invalidId, .invalidSlug, .invalidVersion] c.checkIdentity := by
  rw [checkIdentity]
  split
  · exact .error (by decide)
  split
  · exact .error (by decide)
  · exact .bind (c.parsedVersion_failsAs.mono (by simp)) fun _ => .ok _

end Contract

/-- A write fails with what is wrong with the identity of the contract, or
    because there is one already. -/
theorem Store.write_failsAs (s : Store) (now : Instant) (mode : WriteMode)
    (c : Contract) :
    FailsAs [.invalidId, .invalidSlug, .invalidVersion, .elementAlreadyExists]
      (s.write now mode c) := by
  rw [write]
  refine .bind (.bind (c.checkIdentity_failsAs.mono (by simp)) fun _ =>
    .bind (c.parsedVersion_failsAs.mono (by simp)) fun _ => .ok _) fun e => ?_
  split
  · exact .error (by simp [Error.kind])
  · exact .ok _
  · exact .ok _

end LinkedContracts
