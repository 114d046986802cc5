import LinkedContracts.Proofs.Compile.Yields
import LinkedContracts.Proofs.Filter.Covered
import LinkedContracts.TextLibrary.AtHand

/-! # What is compiled is never NULL

    A filter compiled from a schema is covered by the path it is compiled
    for.  The induction is over what the schema yields.  Keywords test the
    value at the path; a property is tested under the test that it is there,
    and members and linked contracts are bound to a name that their filter
    starts from.  Where the name was bound before, the new value is found
    first, so that no assumption on names is needed. -/

namespace LinkedContracts

open Stateful

namespace Schema

open LinkedContracts.Filter

variable {links : Json → String → List Json} {path : ValuePath}

section

variable [TextLibrary]

/-- A test of the value at a path is covered by that value. -/
theorem covered_of_tests {f : Filter} (h : f.Tests path) :
    Covered links path f := by
  cases h with
  | typeIs types => exact .typeIs types
  | equals value => exact .equals value
  | oneOf values => exact .oneOf values
  | pattern hre => exact .pattern hre
  | bound op value => exact .bound op value
  | length op value => exact .length op value
  | itemCount op value => exact .itemCount op value
  | fullText term => exact .fullText term

/-- A property is tested only where it is there. -/
theorem covered_propertyFilters {child : ValuePath} {f : Filter}
    (h : Covered links child f) :
    ∀ g ∈ propertyFilters child f, Covered links path g := by
  simp only [propertyFilters]
  split
  · exact List.forall_mem_nil _
  · exact List.forall_mem_singleton.mpr (.unlessAbsent h)

/-- What a schema yields at a path is covered by the value there. -/
theorem Yields.covered (links : Json → String → List Json) {s : Schema}
    {p q : Plan} {fs : List Filter} (h : Yields s path p fs q) :
    ∀ f ∈ fs, Covered links path f := by
  induction h with
  | nothing | dropped => exact List.forall_mem_nil _
  | append _ _ first rest => exact List.forall_mem_append.mpr ⟨first, rest⟩
  | always => exact List.forall_mem_singleton.mpr .always
  | never => exact List.forall_mem_singleton.mpr .never
  | test hf => exact List.forall_mem_singleton.mpr (covered_of_tests hf)
  | present => exact List.forall_mem_singleton.mpr (.present _)
  | property _ ih =>
      exact covered_propertyFilters (List.forall_mem_singleton.mp ih)
  | member members quantifier _ _ ih =>
      exact List.forall_mem_singleton.mpr
        (.each _ members quantifier (List.forall_mem_singleton.mp ih))
  | ofAll _ ih => exact List.forall_mem_singleton.mpr (.ofAll ih)
  | conj _ ih => exact List.forall_mem_singleton.mpr (.conj ih)
  | disj _ ih => exact List.forall_mem_singleton.mpr (.disj ih)
  | neg _ ih =>
      exact List.forall_mem_singleton.mpr
        (.neg (List.forall_mem_singleton.mp ih))
  | branch _ _ ih => exact ih
  | link _ _ _ _ ih =>
      exact List.forall_mem_singleton.mpr
        (.linked _ _ (List.forall_mem_singleton.mp ih))

/-- What a schema compiles to is covered by the path it is compiled for. -/
def Sheltered (links : Json → String → List Json) (s : Schema) : Prop :=
  ∀ {path : ValuePath} {p q : Plan} {f : Filter},
    (compile s path).run p = (.ok f, q) → Covered links path f

/-- What a schema compiles to is covered by the path it is compiled for. -/
theorem sheltered (links : Json → String → List Json) (s : Schema) :
    Sheltered links s := by
  intro path p q f h
  exact (yields s h).covered links f List.mem_cons_self

/-! ## Whole schemas -/

/-- Compiling leaves no room for NULL: where the linked contracts are always
    known, the filter of a schema comes in a statement to what it is decided
    with, on every contract, and so does every filter below a quantifier or a
    link, on whatever is bound there.  A linked row has to say whether it is
    active: one that does not is left out of the statement. -/
theorem compileRow_agrees {s : Schema} {table : String} {f : Filter}
    {plan : Plan} (h : (compileRow s).run (Plan.start table) = (.ok f, plan))
    (links : Json → String → List Json) (c : Json) :
    f.Agrees links [(table, c)]
      ∧ ∀ inner ∈ f.inner, ∀ (b : Bindings) (v : Json),
        inner.2.Agrees links ((inner.1, v) :: b) := by
  obtain ⟨_, _, hget, h⟩ := bind_ok h
  obtain ⟨rfl, rfl⟩ := Prod.mk.inj hget |>.imp_left Except.ok.inj
  have covered : Covered links (.row table) f := sheltered links s h
  exact ⟨(covered.here (Bindings.resolve_row table c [])).agrees,
    fun inner hinner b v => (covered.below inner hinner b v).agrees⟩

end

/-- A negation below members, below other properties and below a link, each on
    a property that may be missing.  The linked row is active and says so. -/
theorem compileRow_agrees_negated :
    let unlike (key : String) (value : Json) : Schema := .node
      { not := some (.node
        { properties := some [(key, .node { const := some value })] }) }
    let data : Schema := .node
      { properties := some [("tags", .node
          { items := some (unlike "kind" .null)
            contains := some (unlike "name" (.string "a")) })]
        additionalProperties := some (unlike "hidden" (.bool true)) }
    let s : Schema := .node
      { properties := some [("data", data)]
        links := some [("is owned by", unlike "slug" (.string "org-a"))] }
    let contract : Json := .object [("data", .object
      [("more", .object []), ("tags", .array [.object [], .null])])]
    let links (_ : Json) (_ : String) : List Json := [.object [("active", .bool true)]]
    ∃ f plan, (compileRow s).run (Plan.start "cards") = (.ok f, plan)
      ∧ (∃ o, f.eval (.known links) [("cards", contract)] = .ok o
        ∧ ∀ before after : List Json,
          (f.condition before.length).value links (before ++ f.parameters ++ after)
            [("cards", contract)] = some o.holds)
      ∧ f.inner.map (·.1) = ["el0", "el1", "el2", "join@/is owned by.0"] := by
  intro unlike data s contract links
  have hflagged : Sql.Flagged links := by
    intro row linkType r hr
    obtain rfl := List.mem_singleton.mp hr
    exact nofun
  have hinner : ((compileRow s).run (Plan.start "cards")).1.toOption.map
      (fun f => f.inner.map (·.1)) = some ["el0", "el1", "el2", "join@/is owned by.0"] := by
    decide +kernel
  -- of the filter only the names are needed
  generalize hrun : (compileRow s).run (Plan.start "cards") = result at hinner
  obtain ⟨f | f, plan⟩ := result
  · cases hinner
  obtain ⟨⟨o, kept, heval, -, hsame, hvalue⟩, -⟩ := compileRow_agrees hrun links contract
  obtain rfl := hsame hflagged
  exact ⟨f, plan, rfl, ⟨_, heval, fun before after => (hvalue {} before after).2⟩,
    Option.some.inj hinner⟩

/-- A linked row that does not say whether it is active is counted where a filter is
    decided, and not in a statement. -/
theorem unflagged_row_differs :
    let s : Schema := .node { links := some [("is owned by", .bool true)] }
    let contract : Json := .object [("id", .string "card")]
    let links (_ : Json) (_ : String) : List Json := [.object [("id", .string "org")]]
    ∃ f plan o, (compileRow s).run (Plan.start "cards") = (.ok f, plan)
      ∧ f.eval (.known links) [("cards", contract)] = .ok o ∧ o.holds = true
      ∧ (f.condition 0).value links f.parameters [("cards", contract)] = some false := by
  intro s contract links
  refine ⟨.linked "cards" "is owned by" "join@/is owned by.0" .always, _,
    _, rfl, rfl, ?_, ?_⟩
  · decide +kernel
  · decide +kernel

end Schema

end LinkedContracts
