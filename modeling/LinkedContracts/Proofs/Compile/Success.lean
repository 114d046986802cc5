import LinkedContracts.Proofs.Compile.Planning

/-! # Which schemas compile

    Whether a schema compiles depends on whether it is compiled for a whole
    row, but neither on the names in its path nor on the plan it is compiled
    into.  A schema that compiles somewhere compiles everywhere of that
    kind. -/

namespace LinkedContracts

namespace Stateful

variable {σ α β : Type}

/-- A step that succeeds in every state. -/
def Total (x : ExceptT Error (StateM σ) α) : Prop :=
  ∀ s, ∃ a t, x.run s = (.ok a, t)

/-- A run that yields something ends in some state. -/
theorem ok_of_isOk {x : ExceptT Error (StateM σ) α} {s : σ} (h : (x.run s).1.isOk = true) :
    ∃ a t, x.run s = (.ok a, t) := by
  cases hrun : x.run s with
  | mk result t =>
      rw [hrun] at h
      cases result with
      | ok a => exact ⟨a, t, rfl⟩
      | error e => cases h

theorem total_pure (a : α) : Total (pure a : ExceptT Error (StateM σ) α) :=
  fun s => ⟨a, s, rfl⟩

theorem total_get : Total (get : ExceptT Error (StateM σ) σ) :=
  fun s => ⟨s, s, rfl⟩

theorem total_bind {x : ExceptT Error (StateM σ) α}
    {g : α → ExceptT Error (StateM σ) β} (hx : Total x)
    (hg : ∀ a, Total (g a)) : Total (x >>= g) := by
  intro s
  obtain ⟨a, t, ha⟩ := hx s
  obtain ⟨b, u, hb⟩ := hg a t
  exact ⟨b, u, by rw [run_bind, ha]; exact hb⟩

end Stateful

open Stateful

theorem Plan.total_freshMember : Total Plan.freshMember :=
  fun _ => ⟨_, _, rfl⟩

theorem Plan.total_addLink (linkType : String) {step : Planning Filter}
    (h : Total step) : Total (Plan.addLink linkType step) := by
  intro p
  obtain ⟨f, r, hf⟩ := h (p.inside linkType)
  exact ⟨_, _, by rw [run_addLink, hf]⟩

namespace Schema

/-- A schema that compiles at a path compiles at every path of that kind. -/
def Uniform [TextLibrary] (s : Schema) : Prop :=
  ∀ {path : ValuePath} {p q : Plan} {f : Filter},
    (compile s path).run p = (.ok f, q) →
    ∀ other : ValuePath, other.isRow = path.isRow → Total (compile s other)

variable [TextLibrary]
variable {path other : ValuePath} {p q : Plan}

theorem total_compileMembers {schema : Option Schema}
    (ih : ∀ s ∈ schema.toList, Uniform s) {members : Members}
    {quantifier : Quantifier} {fs : List Filter}
    (h : (compileMembers schema path members quantifier).run p = (.ok fs, q)) :
    Total (compileMembers schema other members quantifier) := by
  cases schema with
  | none => exact total_pure _
  | some s =>
      obtain ⟨name, r, -, h⟩ := bind_ok h
      obtain ⟨f, t, hf, -⟩ := bind_ok h
      exact total_bind Plan.total_freshMember fun name =>
        total_bind (ih s (by simp) hf _ rfl) fun _ => total_pure _

theorem total_compileOthers {schema : Option Schema}
    (ih : ∀ s ∈ schema.toList, Uniform s) {known : List String}
    {fs : List Filter}
    (h : (compileOthers schema path known).run p = (.ok fs, q))
    (hrow : other.isRow = path.isRow) :
    Total (compileOthers schema other known) := by
  cases schema with
  | none => exact total_pure _
  | some s =>
      simp only [compileOthers, hrow] at h ⊢
      split at h
      · next hskip =>
          rw [if_pos hskip]
          exact total_pure _
      · next hskip =>
          rw [if_neg hskip]
          obtain ⟨name, r, -, h⟩ := bind_ok h
          obtain ⟨f, t, hf, -⟩ := bind_ok h
          exact total_bind Plan.total_freshMember fun name =>
            total_bind (ih s (by simp) hf _ rfl) fun _ => total_pure _

theorem total_compileFields {fields : List (String × Schema)}
    (ih : ∀ s ∈ fields.map (·.2), Uniform s) {fs : List Filter}
    (h : (compileFields fields path).run p = (.ok fs, q)) :
    Total (compileFields fields other) := by
  induction fields generalizing p fs with
  | nil => exact total_pure _
  | cons field rest rec =>
      obtain ⟨f, r, hf, h⟩ := bind_ok h
      obtain ⟨others, t, ho, h⟩ := bind_ok h
      obtain ⟨-, rfl⟩ := pure_ok h
      have hkind : (other.child field.1).isRow = (path.child field.1).isRow :=
        (other.isRow_child field.1).trans (path.isRow_child field.1).symm
      exact total_bind (ih _ (by simp) hf _ hkind) fun _ =>
        total_bind (rec (fun s hs => ih s (by simp [hs])) ho) fun _ => total_pure _

theorem total_compileProperties {fields : Option (List (String × Schema))}
    (ih : ∀ s ∈ Keywords.namedParts fields, Uniform s) {fs : List Filter}
    (h : (compileProperties fields path).run p = (.ok fs, q)) :
    Total (compileProperties fields other) := by
  cases fields with
  | none => exact total_pure _
  | some fields => exact total_compileFields ih h

theorem total_compileAll {schemas : List Schema}
    (ih : ∀ s ∈ schemas, Uniform s) {fs : List Filter}
    (h : (compileAll schemas path).run p = (.ok fs, q))
    (hrow : other.isRow = path.isRow) : Total (compileAll schemas other) := by
  induction schemas generalizing p fs with
  | nil => exact total_pure _
  | cons s rest rec =>
      obtain ⟨f, r, hf, h⟩ := bind_ok h
      obtain ⟨others, t, ho, h⟩ := bind_ok h
      obtain ⟨-, rfl⟩ := pure_ok h
      exact total_bind (ih s (by simp) hf _ hrow) fun _ =>
        total_bind (rec (fun s hs => ih s (by simp [hs])) ho) fun _ =>
          total_pure _

theorem total_compileBranches {branches : Option (List Schema)}
    (ih : ∀ s ∈ branches.getD [], Uniform s) {fs : Option (List Filter)}
    (h : (compileBranches branches path).run p = (.ok fs, q))
    (hrow : other.isRow = path.isRow) :
    Total (compileBranches branches other) := by
  cases branches with
  | none => exact total_pure _
  | some schemas =>
      obtain ⟨fs, r, hfs, -⟩ := bind_ok h
      exact total_bind (total_compileAll ih hfs hrow) fun _ => total_pure _

theorem total_compileNot {schema : Option Schema}
    (ih : ∀ s ∈ schema.toList, Uniform s) {fs : List Filter}
    (h : (compileNot schema path).run p = (.ok fs, q))
    (hrow : other.isRow = path.isRow) : Total (compileNot schema other) := by
  cases schema with
  | none => exact total_pure _
  | some s =>
      obtain ⟨f, r, hf, -⟩ := bind_ok h
      exact total_bind (ih s (by simp) hf _ hrow) fun _ => total_pure _

theorem total_compileLinkTypes {fields : List (String × Schema)}
    (ih : ∀ s ∈ fields.map (·.2), Uniform s) {fs : List Filter}
    (h : (compileLinkTypes fields).run p = (.ok fs, q)) :
    Total (compileLinkTypes fields) := by
  induction fields generalizing p fs with
  | nil => exact total_pure _
  | cons field rest rec =>
      obtain ⟨_, _, -, h⟩ := bind_ok h
      obtain ⟨⟨name, f⟩, r, hadd, h⟩ := bind_ok h
      obtain ⟨others, t, ho, h⟩ := bind_ok h
      obtain ⟨-, rfl⟩ := pure_ok h
      obtain ⟨-, u, hstep, -⟩ := Plan.addLink_ok hadd
      obtain ⟨_, _, -, hstep⟩ := bind_ok hstep
      refine total_bind total_get fun _ => total_bind
        (Plan.total_addLink _ (total_bind total_get fun _ => ?_)) fun _ =>
        total_bind (rec (fun s hs => ih s (by simp [hs])) ho) fun _ =>
          total_pure _
      exact ih _ (by simp) hstep _ rfl

theorem total_compileLinks {fields : Option (List (String × Schema))}
    (ih : ∀ s ∈ Keywords.namedParts fields, Uniform s) {fs : List Filter}
    (h : (compileLinks fields path).run p = (.ok fs, q))
    (hrow : other.isRow = path.isRow) : Total (compileLinks fields other) := by
  cases fields with
  | none => exact total_pure _
  | some fields =>
      simp only [compileLinks, hrow] at h ⊢
      split at h
      · next hpath =>
          rw [if_pos hpath]
          exact total_compileLinkTypes ih h
      · cases h

/-- Whether a keyword with a pattern compiles does not depend on the path. -/
theorem forEach_ok {α : Type} {value : Option α} {source : α → String}
    {ignoreCase : α → Bool} {fs : List Filter}
    (h : forEach value (fun a => patternFilter path (source a) (ignoreCase a))
      = .ok fs) (other : ValuePath) :
    ∃ gs, forEach value
      (fun a => patternFilter other (source a) (ignoreCase a)) = .ok gs := by
  cases value with
  | none => exact ⟨_, rfl⟩
  | some a =>
      simp only [forEach, patternFilter] at h ⊢
      cases hp : Pattern.ofSource? (source a) (ignoreCase a) with
      | none => rw [hp] at h; cases h
      | some re => exact ⟨_, rfl⟩

theorem stringFilters_ok {kw : Keywords Schema} {fs : List Filter}
    (h : stringFilters kw path = .ok fs) (other : ValuePath) :
    ∃ gs, stringFilters kw other = .ok gs := by
  simp only [stringFilters, bind, Except.bind] at h ⊢
  split at h
  · cases h
  · next pattern hp =>
      obtain ⟨_, hp⟩ := forEach_ok hp other
      split at h
      · cases h
      · next regexp hr =>
          obtain ⟨_, hr⟩ := forEach_ok hr other
          split at h
          · cases h
          · next format hf =>
              obtain ⟨_, hf⟩ := forEach_ok hf other
              simp only [hp, hr, hf]
              exact ⟨_, rfl⟩

/-- A schema compiles if its keywords do. -/
theorem total_node {kw : Keywords Schema} {strings : List Filter}
    (hstrings : stringFilters kw path = .ok strings)
    (hitems : Total (compileMembers kw.items path .items .all))
    (hcontains : Total (compileMembers kw.contains path .items .some))
    (hproperties : Total (compileProperties kw.properties path))
    (hothers : Total (compileOthers kw.additionalProperties path (knownNames kw)))
    (hall : Total (compileBranches kw.allOf path))
    (hany : Total (compileBranches kw.anyOf path))
    (hnot : Total (compileNot kw.not path))
    (hlinks : Total (compileLinks kw.links path)) :
    Total (compile (.node kw) path) := by
  have lifted : Total (liftM (stringFilters kw path) : Planning (List Filter)) :=
    fun p => ⟨strings, p, by rw [hstrings]; rfl⟩
  rw [compile]
  exact total_bind lifted fun _ => total_bind hitems fun _ =>
    total_bind hcontains fun _ => total_bind hproperties fun _ =>
    total_bind hothers fun _ => total_bind hall fun _ =>
    total_bind hany fun _ => total_bind hnot fun _ =>
    total_bind hlinks fun _ => total_pure _

/-- Whether a schema compiles depends on the kind of its path only. -/
theorem uniform (s : Schema) : Uniform s := by
  induction s using Schema.induct with
  | bool b =>
      intro path p q f _ other _
      cases b <;> exact total_pure _
  | node kw ih =>
      simp only [Keywords.parts, List.mem_append, or_assoc] at ih
      intro path p q f h other hrow
      rw [compile] at h
      obtain ⟨strings, r0, h0, h⟩ := bind_ok h
      obtain ⟨_, hstrings⟩ := stringFilters_ok (congrArg Prod.fst h0) other
      obtain ⟨_, _, h1, h⟩ := bind_ok h
      obtain ⟨_, _, h2, h⟩ := bind_ok h
      obtain ⟨_, _, h3, h⟩ := bind_ok h
      obtain ⟨_, _, h4, h⟩ := bind_ok h
      obtain ⟨_, _, h5, h⟩ := bind_ok h
      obtain ⟨_, _, h6, h⟩ := bind_ok h
      obtain ⟨_, _, h7, h⟩ := bind_ok h
      obtain ⟨_, _, h8, -⟩ := bind_ok h
      exact total_node hstrings
        (total_compileMembers (fun s hs => ih s (by simp [hs])) h1)
        (total_compileMembers (fun s hs => ih s (by simp [hs])) h2)
        (total_compileProperties (fun s hs => ih s (by simp [hs])) h3)
        (total_compileOthers (fun s hs => ih s (by simp [hs])) h4 hrow)
        (total_compileBranches (fun s hs => ih s (by simp [hs])) h5 hrow)
        (total_compileBranches (fun s hs => ih s (by simp [hs])) h6 hrow)
        (total_compileNot (fun s hs => ih s (by simp [hs])) h7 hrow)
        (total_compileLinks (fun s hs => ih s (by simp [hs])) h8 hrow)

/-! ## Parts -/

/-- The schemas of a list compile if and only if the list does. -/
theorem total_compileAll_iff {schemas : List Schema} :
    Total (compileAll schemas path) ↔ ∀ s ∈ schemas, Total (compile s path) := by
  induction schemas with
  | nil => exact ⟨fun _ => List.forall_mem_nil _, fun _ => total_pure _⟩
  | cons s rest ih =>
      rw [List.forall_mem_cons, ← ih]
      constructor
      · intro h
        obtain ⟨fs, q, h⟩ := h (Plan.start "")
        obtain ⟨f, r, hf, h⟩ := bind_ok h
        obtain ⟨others, t, ho, -⟩ := bind_ok h
        exact ⟨uniform s hf path rfl, total_compileAll (fun s _ => uniform s) ho rfl⟩
      · rintro ⟨hs, hrest⟩
        exact total_bind hs fun _ => total_bind hrest fun _ => total_pure _

theorem total_compileBranches_iff {branches : Option (List Schema)} :
    Total (compileBranches branches path)
      ↔ ∀ s ∈ branches.getD [], Total (compile s path) := by
  cases branches with
  | none => exact ⟨fun _ => List.forall_mem_nil _, fun _ => total_pure _⟩
  | some schemas =>
      rw [Option.getD_some, ← total_compileAll_iff]
      constructor
      · intro h
        obtain ⟨found, q, h⟩ := h (Plan.start "")
        obtain ⟨fs, r, hfs, -⟩ := bind_ok h
        exact total_compileAll (fun s _ => uniform s) hfs rfl
      · intro h
        exact total_bind h fun _ => total_pure _

/-- What a schema asks of properties and of branches compiles if the schema
    does. -/
theorem total_parts {kw : Keywords Schema} (h : Total (compile (.node kw) path)) :
    Total (compileProperties kw.properties path)
      ∧ Total (compileOthers kw.additionalProperties path (knownNames kw))
      ∧ (∀ s ∈ kw.allOf.getD [], Total (compile s path))
      ∧ ∀ s ∈ kw.anyOf.getD [], Total (compile s path) := by
  obtain ⟨f, q, h⟩ := h (Plan.start "")
  rw [compile] at h
  obtain ⟨_, _, -, h⟩ := bind_ok h
  obtain ⟨_, _, -, h⟩ := bind_ok h
  obtain ⟨_, _, -, h⟩ := bind_ok h
  obtain ⟨_, _, hproperties, h⟩ := bind_ok h
  obtain ⟨_, _, hothers, h⟩ := bind_ok h
  obtain ⟨_, _, hall, h⟩ := bind_ok h
  obtain ⟨_, _, hany, -⟩ := bind_ok h
  refine ⟨?_, ?_, ?_, ?_⟩
  · exact total_compileProperties (fun s _ => uniform s) hproperties
  · exact total_compileOthers (fun s _ => uniform s) hothers rfl
  · exact total_compileBranches_iff.mp
      (total_compileBranches (fun s _ => uniform s) hall rfl)
  · exact total_compileBranches_iff.mp
      (total_compileBranches (fun s _ => uniform s) hany rfl)

/-- A conjunction compiles where all of its schemas do. -/
theorem total_conj {schemas : List Schema} :
    Total (compile (conj schemas) path) ↔ ∀ s ∈ schemas, Total (compile s path) := by
  constructor
  · intro h
    exact (total_parts h).2.2.1
  · intro h
    exact total_node rfl (total_pure _) (total_pure _) (total_pure _) (total_pure _)
      (total_compileBranches_iff.mpr h) (total_pure _) (total_pure _) (total_pure _)

/-- So does a disjunction. -/
theorem total_disj {schemas : List Schema} :
    Total (compile (disj schemas) path) ↔ ∀ s ∈ schemas, Total (compile s path) := by
  constructor
  · intro h
    exact (total_parts h).2.2.2
  · intro h
    exact total_node rfl (total_pure _) (total_pure _) (total_pure _) (total_pure _)
      (total_pure _) (total_compileBranches_iff.mpr h) (total_pure _) (total_pure _)

/-! ## Whole contracts -/

/-- A schema that compiles for the row of whatever table. -/
def Compiles (s : Schema) : Prop := Total (compileRow s)

/-- A schema that compiles for a row compiles for the row of any table. -/
theorem compiles_of_run {s : Schema} {f : Filter} (hrow : path.isRow = true)
    (h : (compile s path).run p = (.ok f, q)) : s.Compiles :=
  total_bind total_get fun _ => uniform s h _ (by rw [hrow]; rfl)

theorem compiles_of_compileRow {s : Schema} {f : Filter}
    (h : (compileRow s).run p = (.ok f, q)) : s.Compiles := by
  obtain ⟨_, _, -, h⟩ := bind_ok h
  exact compiles_of_run rfl h

theorem compiles_iff {s : Schema} (name : String) :
    s.Compiles ↔ Total (compile s (.row name)) := by
  constructor
  · intro h
    obtain ⟨f, q, h⟩ := h (Plan.start name)
    obtain ⟨_, _, -, h⟩ := bind_ok h
    exact uniform s h _ rfl
  · intro h
    obtain ⟨f, q, h⟩ := h (Plan.start name)
    exact compiles_of_run rfl h

/-- A conjunction compiles for rows where all of its schemas do. -/
theorem compiles_conj {schemas : List Schema} :
    (conj schemas).Compiles ↔ ∀ s ∈ schemas, s.Compiles := by
  simp only [compiles_iff "", total_conj]

/-- So does a disjunction. -/
theorem compiles_disj {schemas : List Schema} :
    (disj schemas).Compiles ↔ ∀ s ∈ schemas, s.Compiles := by
  simp only [compiles_iff "", total_disj]

/-! ## Values inside contracts -/

/-- A schema that compiles for whatever value inside a contract. -/
def CompilesInside (s : Schema) : Prop :=
  ∀ path : ValuePath, path.isRow = false → Total (compile s path)

/-- A schema that compiles for a value compiles for any value. -/
theorem compilesInside_of_run {s : Schema} {f : Filter} (hpath : path.isRow = false)
    (h : (compile s path).run p = (.ok f, q)) : s.CompilesInside :=
  fun other hother => uniform s h other (hother.trans hpath.symm)

theorem compilesInside_of_total {s : Schema} (hpath : path.isRow = false)
    (h : Total (compile s path)) : s.CompilesInside := by
  obtain ⟨f, q, h⟩ := h (Plan.start "")
  exact compilesInside_of_run hpath h

theorem compilesInside_bool (accepts : Bool) : (Schema.bool accepts).CompilesInside := by
  intro path _
  cases accepts <;> exact total_pure _

theorem compilesInside_conj {schemas : List Schema}
    (h : ∀ s ∈ schemas, s.CompilesInside) : (conj schemas).CompilesInside :=
  fun path hpath => total_conj.mpr fun s hs => h s hs path hpath

theorem compilesInside_disj {schemas : List Schema}
    (h : ∀ s ∈ schemas, s.CompilesInside) : (disj schemas).CompilesInside :=
  fun path hpath => total_disj.mpr fun s hs => h s hs path hpath

/-- What a schema asks of a property compiles if the properties do. -/
theorem compilesInside_of_compileFields {fields : List (String × Schema)}
    (h : Total (compileFields fields path)) {s : Schema} {name : String}
    (hs : (name, s) ∈ fields) : s.CompilesInside := by
  induction fields with
  | nil => cases hs
  | cons field rest ih =>
      obtain ⟨fs, q, h⟩ := h (Plan.start "")
      obtain ⟨f, r, hf, h⟩ := bind_ok h
      obtain ⟨others, t, ho, -⟩ := bind_ok h
      rcases List.mem_cons.mp hs with rfl | hs
      · exact compilesInside_of_run (path.isRow_child name) hf
      · exact ih (total_compileFields (fun s _ => uniform s) ho) hs

/-- What a schema asks of other properties compiles if it is asked of them. -/
theorem compilesInside_of_compileOthers {s : Schema} {known : List String}
    (hpath : path.isRow = false) (h : Total (compileOthers (some s) path known)) :
    s.CompilesInside := by
  obtain ⟨fs, q, h⟩ := h (Plan.start "")
  simp only [compileOthers, hpath, Bool.false_or] at h
  split at h
  · next htrue =>
    obtain rfl := eq_of_isTrue htrue
    exact compilesInside_bool true
  · obtain ⟨name, r, -, h⟩ := bind_ok h
    obtain ⟨f, t, hf, -⟩ := bind_ok h
    exact compilesInside_of_run rfl hf

end Schema

end LinkedContracts
