import LinkedContracts.Proofs.Compile.Asked
import LinkedContracts.Proofs.Query.Named
import LinkedContracts.Proofs.Schema.Columns
import LinkedContracts.Validation

/-! # What masked filters do not see

    A schema that asks for no links and compares no contract as a whole tells
    contracts apart only by what it names.  Pruning leaves no name that the
    mask forbids, so that the filter of a pruned schema decides alike of
    contracts that differ in forbidden properties only.

    A schema that compares contracts as wholes is pruned of names, but not of
    the comparison, and sees what the mask forbids. -/

namespace LinkedContracts

namespace Filter

/-! ## Filters without links -/

variable {source : LinkSource} {links : Json → String → List Json}

mutual

/-- A filter without links asks for no linked contracts. -/
theorem eval_of_no_links (source : LinkSource) (links : Json → String → List Json) :
    ∀ (f : Filter) (b : Bindings), f.linksWithin [] = [] →
      f.eval source b = .ok (f.outcome links b)
  | always, b, _ | never, b, _ | present _, b, _ | typeIs _ _, b, _ | equals _ _, b, _
  | oneOf _ _, b, _ | pattern _ _, b, _ | bound _ _ _, b, _ | length _ _ _, b, _
  | itemCount _ _ _, b, _ | fullText _ _, b, _ => rfl
  | conj fs, b, h | disj fs, b, h => by
      rw [← eval_known]
      simp only [eval, evalAll_of_no_links source links fs b h, evalAll_known]
  | neg f, b, h => by
      rw [← eval_known]
      simp only [eval, eval_of_no_links source links f b h, eval_known]
  | each p members quantifier name f, b, h => by
      rw [← eval_known]
      simp only [eval, fun v => eval_of_no_links source links f ((name, v) :: b) h,
        eval_known]
  | linked _ _ _ _, _, h => nomatch h

theorem evalAll_of_no_links (source : LinkSource)
    (links : Json → String → List Json) :
    ∀ (fs : List Filter) (b : Bindings), linksWithinAll [] fs = [] →
      evalAll source fs b = .ok (fs.map fun f => f.outcome links b)
  | [], _, _ => rfl
  | f :: rest, b, h => by
      obtain ⟨hfirst, hrest⟩ := List.append_eq_nil_iff.mp h
      simp only [evalAll, eval_of_no_links source links f b hfirst,
        evalAll_of_no_links source links rest b hrest]
      rfl

end

end Filter

namespace Schema

variable [TextLibrary]
variable {s : Schema} {links links' : Json → String → List Json} {a b : Json}

/-- The filter of a schema that asks for no links has none. -/
theorem linksWithin_eq_nil (hfree : ∀ linkType t, ¬Asks s linkType t) {table : String}
    {f : Filter} {plan : Plan}
    (h : (compileRow s).run (Plan.start table) = (.ok f, plan)) :
    f.linksWithin [] = [] := by
  obtain ⟨_, _, hget, hrun⟩ := Stateful.bind_ok h
  refine List.eq_nil_iff_forall_not_mem.mpr fun x hx => ?_
  have hwithin : x ∈ Filter.linksWithinAll [] [f] := by
    simpa [Filter.linksWithinAll] using hx
  obtain ⟨t, horigin⟩ := (yields s hrun).origin x hwithin
  cases horigin.reaches with
  | direct hasks => exact hfree _ _ hasks
  | further hasks _ => exact hfree _ _ hasks

/-- Contracts that agree on what a schema names meet it alike, if it asks for
    no links and compares no contract as a whole. -/
theorem meets_of_names (s : Schema) (hfree : ∀ linkType t, ¬Asks s linkType t)
    (hweighs : ¬s.Weighs)
    (hsame : ∀ key, s.Names key → a.field? key = b.field? key) :
    s.meets links .contract a = s.meets links' .contract b := by
  induction s using Schema.induct with
  | bool accepts => rw [meets, meets]
  | node kw ih =>
      obtain ⟨hconst, henum, hsearch, hbranches⟩ := not_weighs_node_iff.mp hweighs
      have hlinks : kw.links.getD [] = [] := by
        refine List.eq_nil_iff_forall_not_mem.mpr fun p hp => ?_
        exact hfree p.1 p.2 (.link hp)
      -- branches are asked of the same contract, and name no more
      have hbranch : ∀ t ∈ kw.branches,
          t.meets links .contract a = t.meets links' .contract b := by
        intro t ht
        refine ih t (Keywords.mem_parts_of_branch ht)
          (fun linkType u hasks => hfree linkType u (.branch ht hasks))
          (hbranches t ht) fun key hkey => hsame key ?_
        exact names_node.mpr (.inr (.inr ⟨t, ht, hkey⟩))
      simp only [Keywords.branches, List.mem_append, or_imp, forall_and] at hbranch
      obtain ⟨⟨hallOf, hanyOf⟩, hnot⟩ := hbranch
      have hproperty : ∀ p ∈ kw.properties.getD [],
          Place.contract.property? a p.1 = Place.contract.property? b p.1 := by
        intro p hp
        have hkey : p.1 ∈ Dict.keys (kw.properties.getD []) := List.mem_map_of_mem hp
        simp only [Place.property?, hsame p.1 (names_node.mpr (.inr (.inl hkey)))]
      have hasked : linksMeet links kw.links .contract a
          = linksMeet links' kw.links .contract b := by
        cases hkw : kw.links with
        | none => rfl
        | some fields =>
            rw [hkw, Option.getD_some] at hlinks
            rw [hlinks]
            rfl
      rw [meets, meets, plainMeets_contract hconst henum hsearch a b, hasked,
        propertiesMeet_congr hproperty fun s _ => meets_value links links' s,
        allMeet_congr hallOf, anyMeets_congr hanyOf, notMeets_congr hnot]
      simp [eachMeets, someMeets, Place.items?, Place.others?]

end Schema

namespace Mask

variable {mask query : Schema} {key table : String} {f : Filter} {plan : Plan}
  {c d : Json}

theorem weighs_prune (s mask : Schema) : (prune s mask).Weighs ↔ s.Weighs := by
  induction s using Schema.induct with
  | bool accepts => rw [prune]
  | node kw ih =>
      obtain ⟨pruned, hpruned⟩ : ∃ pruned, prune (.node kw) mask = .node pruned :=
        ⟨_, by rw [prune]⟩
      have hbranch : (∃ t ∈ pruned.branches, t.Weighs) ↔ ∃ s ∈ kw.branches, s.Weighs := by
        rw [branches_prune hpruned]
        simp only [List.mem_map, exists_exists_and_eq_and]
        refine exists_congr fun s => and_congr_right fun hs => ?_
        exact ih s (Keywords.mem_parts_of_branch hs)
      rw [hpruned, Schema.weighs_node, Schema.weighs_node, hbranch]
      rw [prune] at hpruned
      obtain rfl := Schema.node.inj hpruned
      rfl

/-- Contracts that differ in a forbidden property only meet a pruned query
    alike. -/
theorem meets_prune_congr [TextLibrary] (hforbids : forbids mask key = true)
    (hfree : ∀ linkType t, ¬Schema.Asks query linkType t) (hweighs : ¬query.Weighs)
    (hsame : Json.SameBut key c d)
    (links links' : Json → String → List Json) :
    (prune query mask).meets links .contract c
      = (prune query mask).meets links' .contract d := by
  refine Schema.meets_of_names _ (fun linkType t hasks => ?_)
    (mt (weighs_prune query mask).mp hweighs) fun other hnames => hsame other ?_
  · obtain ⟨s, hs, -⟩ := asks_prune hasks
    exact hfree linkType s hs
  · -- what pruning leaves is not forbidden
    rintro rfl
    have hvisible := ((names_prune query mask).mp hnames).2
    rw [hforbids] at hvisible
    cases hvisible

/-- Hidden values do not influence which contracts match: the filter of a
    pruned query decides alike of contracts that differ in a forbidden
    property only, if the query asks for no links and compares no contract as
    a whole. -/
theorem accepts_prune_congr [TextLibrary] (hforbids : forbids mask key = true)
    (hfree : ∀ linkType t, ¬Schema.Asks query linkType t) (hweighs : ¬query.Weighs)
    (hrun : (Schema.compileRow (prune query mask)).run (Plan.start table) = (.ok f, plan))
    (hsame : Json.SameBut key c d)
    (source source' : LinkSource) :
    ∃ accepted : Bool,
      (f.matchContract source table c).map Option.isSome = .ok accepted
        ∧ (f.matchContract source' table d).map Option.isSome = .ok accepted := by
  let links : Json → String → List Json := fun _ _ => []
  have hnone : f.linksWithin [] = [] := by
    refine Schema.linksWithin_eq_nil (fun linkType t hasks => ?_) hrun
    obtain ⟨s, hs, -⟩ := asks_prune hasks
    exact hfree linkType s hs
  have hdecides (source : LinkSource) (c : Json) :
      (f.matchContract source table c).map Option.isSome
        = .ok ((prune query mask).meets links .contract c) := by
    rw [← Schema.answer_compileRow hrun links c, Filter.answer, Filter.matchContract,
      Filter.eval_of_no_links source links f _ hnone]
    cases hholds : (f.outcome links [(table, c)]).holds <;> simp [Except.map, hholds]
  refine ⟨_, hdecides source c, ?_⟩
  rw [hdecides source' d, meets_prune_congr hforbids hfree hweighs hsame links links]

/-- A mask that lets slugs and markers through, and no names. -/
def nameless : Schema :=
  .node
    { properties := some [("markers", .bool true), ("slug", .bool true)]
      additionalProperties := some (.bool false) }

/-- A contract with a name. -/
def namedCard (name : String) : Json :=
  .object
    [("markers", .array []), ("name", .string name), ("slug", .string "card")]

theorem sameBut_namedCard (name name' : String) :
    Json.SameBut "name" (namedCard name) (namedCard name') := by
  intro other hother
  simp [namedCard, Json.field?, Dict.find?_cons, Ne.symm hother]

/-- A query for a slug and a name. -/
def namedAlpha : Schema :=
  .node
    { required := some ["name"]
      properties := some
        [("name", .node { const := some (.string "Alpha") }),
         ("slug", .node { const := some (.string "card") })] }

/-- The query decides alike of contracts with one name or another. -/
theorem accepts_prune_congr_named :
    ∃ f plan, (Schema.compileRow (prune namedAlpha nameless)).run (Plan.start "cards")
        = (.ok f, plan)
      ∧ ∀ source source', ∃ accepted : Bool,
        (f.matchContract source "cards" (namedCard "Alpha")).map Option.isSome
            = .ok accepted
          ∧ (f.matchContract source' "cards" (namedCard "Beta")).map Option.isSome
            = .ok accepted := by
  have hfree : ∀ linkType t, ¬Schema.Asks namedAlpha linkType t :=
    Schema.not_asks_leaf rfl rfl
  have hweighs : ¬namedAlpha.Weighs := Schema.not_weighs_leaf rfl rfl rfl rfl
  have hforbids : forbids nameless "name" = true := by decide
  refine ⟨_, _, rfl, ?_⟩
  exact accepts_prune_congr hforbids hfree hweighs rfl (sameBut_namedCard _ _)

/-- A query for a contract as a whole. -/
def wholeAlpha : Schema := .node { const := some (namedCard "Alpha") }

/-- The query tells a name from another, although the mask forbids names. -/
theorem tells_forbidden_names :
    ∃ v f plan, Validator.ofSchema nameless = .ok v
      ∧ (Schema.compileRow (prune wholeAlpha nameless)).run (Plan.start "cards")
        = (.ok f, plan)
      ∧ forbids nameless "name" = true ∧ "name" ∈ ValuePath.columns
      ∧ (∀ linkType t, ¬Schema.Asks wholeAlpha linkType t)
      ∧ Json.SameBut "name" (namedCard "Alpha") (namedCard "Beta")
      ∧ ∀ source,
        v.accepts (namedCard "Alpha") source = .ok true
          ∧ v.accepts (namedCard "Beta") source = .ok true
          ∧ (f.matchContract source "cards" (namedCard "Alpha")).map Option.isSome
            = .ok true
          ∧ (f.matchContract source "cards" (namedCard "Beta")).map Option.isSome
            = .ok false :=
  ⟨_, _, _, rfl, rfl, by decide, by decide, Schema.not_asks_leaf rfl rfl,
    sameBut_namedCard _ _, fun _ => ⟨rfl, rfl, rfl, rfl⟩⟩

end Mask

end LinkedContracts
