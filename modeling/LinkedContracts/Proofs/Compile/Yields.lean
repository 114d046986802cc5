import LinkedContracts.Proofs.Compile.Planning
import LinkedContracts.Proofs.Filter.Answer

/-! # What compiling yields

    `Yields` tells how a schema that compiles at a path comes to its filters
    and to its plan, one rule for each thing a keyword can do: test the value
    at the path, test a property under the test that it is there, quantify
    over members, join branches of the schema, and follow a link.

    The induction over schemas is done here once, in `yields`; what holds of
    whatever is compiled follows by induction on `Yields`. -/

namespace LinkedContracts

open Stateful

/-- The schemas asked of the value that the schema itself is asked of. -/
def Keywords.branches {σ : Type} (kw : Keywords σ) : List σ :=
  kw.allOf.getD [] ++ kw.anyOf.getD [] ++ kw.not.toList

theorem Keywords.mem_parts_of_branch {σ : Type} {kw : Keywords σ} {s : σ}
    (h : s ∈ kw.branches) : s ∈ kw.parts := by
  simp only [branches, List.mem_append] at h
  simp only [parts, List.mem_append]
  grind

/-- A test of the value at a path. -/
inductive Filter.Tests [TextLibrary] (path : ValuePath) : Filter → Prop where
  | typeIs (types : List JsonType) : Tests path (.typeIs path types)
  | equals (value : Json) : Tests path (.equals path value)
  | oneOf (values : List Json) : Tests path (.oneOf path values)
  | pattern {source : String} {ignoreCase : Bool} {re : Pattern}
      (hre : Pattern.ofSource? source ignoreCase = some re) :
      Tests path (.pattern path re)
  | bound (op : Comparison) (value : Binary64) :
      Tests path (.bound path op value)
  | length (op : Comparison) (value : Nat) : Tests path (.length path op value)
  | itemCount (op : Comparison) (value : Nat) :
      Tests path (.itemCount path op value)
  | fullText (term : String) : Tests path (.fullText path term)

namespace Schema

/-- A schema compares a contract as a whole: with values, or by a search of
    its text. -/
inductive Weighs : Schema → Prop where
  | const {kw : Keywords Schema} (h : kw.const.isSome = true) :
      Weighs (.node kw)
  | enum {kw : Keywords Schema} (h : kw.enum.isSome = true) : Weighs (.node kw)
  | search {kw : Keywords Schema}
      (h : (kw.fullTextSearch.bind FullTextSearch.term?).isSome = true) :
      Weighs (.node kw)
  | branch {kw : Keywords Schema} {s : Schema} (hs : s ∈ kw.branches)
      (h : Weighs s) : Weighs (.node kw)

theorem weighs_node {kw : Keywords Schema} :
    (node kw).Weighs ↔ kw.const.isSome = true ∨ kw.enum.isSome = true
      ∨ (kw.fullTextSearch.bind FullTextSearch.term?).isSome = true
      ∨ ∃ s ∈ kw.branches, s.Weighs := by
  constructor
  · rintro (h | h | h | ⟨hs, h⟩)
    · exact .inl h
    · exact .inr (.inl h)
    · exact .inr (.inr (.inl h))
    · exact .inr (.inr (.inr ⟨_, hs, h⟩))
  · rintro (h | h | h | ⟨s, hs, h⟩)
    · exact .const h
    · exact .enum h
    · exact .search h
    · exact .branch hs h

theorem not_weighs_node_iff {kw : Keywords Schema} :
    ¬(node kw).Weighs ↔ kw.const = none ∧ kw.enum = none
      ∧ kw.fullTextSearch.bind FullTextSearch.term? = none
      ∧ ∀ s ∈ kw.branches, ¬s.Weighs := by
  simp [weighs_node]

/-- A schema compares no contract as a whole if it has neither values nor a
    search, and none of its branches does. -/
theorem not_weighs_node {kw : Keywords Schema} (hconst : kw.const = none)
    (henum : kw.enum = none) (hsearch : kw.fullTextSearch = none)
    (h : ∀ s ∈ kw.branches, ¬s.Weighs) : ¬(node kw).Weighs :=
  not_weighs_node_iff.mpr ⟨hconst, henum, by simp [hsearch], h⟩

theorem not_weighs_leaf {kw : Keywords Schema} (hconst : kw.const = none)
    (henum : kw.enum = none) (hsearch : kw.fullTextSearch = none)
    (hleaf : kw.branches = []) : ¬(node kw).Weighs :=
  not_weighs_node hconst henum hsearch (by simp [hleaf])

theorem not_weighs_conj {schemas : List Schema} (h : ∀ s ∈ schemas, ¬s.Weighs) :
    ¬(conj schemas).Weighs :=
  not_weighs_node rfl rfl rfl (by simpa [Keywords.branches] using h)

theorem not_weighs_disj {schemas : List Schema} (h : ∀ s ∈ schemas, ¬s.Weighs) :
    ¬(disj schemas).Weighs :=
  not_weighs_node rfl rfl rfl (by simpa [Keywords.branches] using h)

/-- At a path, a schema takes a plan to filters and a plan. -/
inductive Yields [TextLibrary] : Schema → ValuePath → Plan → List Filter → Plan → Prop where
  | nothing {s : Schema} {path : ValuePath} {p : Plan} : Yields s path p [] p
  | append {s : Schema} {path : ValuePath} {p q r : Plan}
      {fs gs : List Filter} (first : Yields s path p fs q)
      (rest : Yields s path q gs r) : Yields s path p (fs ++ gs) r
  | always {s : Schema} {path : ValuePath} {p : Plan} :
      Yields s path p [.always] p
  | never {s : Schema} {path : ValuePath} {p : Plan} :
      Yields s path p [.never] p
  /-- A whole row is tested only if the schema compares whole contracts. -/
  | test {s : Schema} {path : ValuePath} {p : Plan} {f : Filter}
      (hf : f.Tests path) (hrow : path.isRow = true → s.Weighs) :
      Yields s path p [f] p
  | present {s : Schema} {path : ValuePath} {p : Plan} (name : String) :
      Yields s path p [.present (path.child name)] p
  | property {s t : Schema} {path : ValuePath} {p q : Plan} {f : Filter}
      {name : String} (h : Yields t (path.child name) p [f] q) :
      Yields s path p (propertyFilters (path.child name) f) q
  | member {s t : Schema} {path : ValuePath} {p q : Plan} {f : Filter}
      {name : String} (members : Members) (quantifier : Quantifier)
      (hpath : path.isRow = false)
      (h : Yields t (.member name)
        { p with memberCount := p.memberCount + 1 } [f] q) :
      Yields s path p [.each path members quantifier name f] q
  /-- A row has no members. -/
  | dropped {s t : Schema} {path : ValuePath} {p q : Plan} {f : Filter}
      {name : String} (hpath : path.isRow = true)
      (h : Yields t (.member name)
        { p with memberCount := p.memberCount + 1 } [f] q) :
      Yields s path p [] q
  | ofAll {s : Schema} {path : ValuePath} {p q : Plan} {fs : List Filter}
      (h : Yields s path p fs q) : Yields s path p [.ofAll fs] q
  | conj {s : Schema} {path : ValuePath} {p q : Plan} {fs : List Filter}
      (h : Yields s path p fs q) : Yields s path p [.conj fs] q
  | disj {s : Schema} {path : ValuePath} {p q : Plan} {fs : List Filter}
      (h : Yields s path p fs q) : Yields s path p [.disj fs] q
  | neg {s : Schema} {path : ValuePath} {p q : Plan} {f : Filter}
      (h : Yields s path p [f] q) : Yields s path p [.neg f] q
  | branch {kw : Keywords Schema} {s : Schema} {path : ValuePath} {p q : Plan}
      {fs : List Filter} (hs : s ∈ kw.branches) (h : Yields s path p fs q) :
      Yields (.node kw) path p fs q
  | link {kw : Keywords Schema} {s : Schema} {path : ValuePath} {p r : Plan}
      {f : Filter} {linkType : String} (hrow : path.isRow = true)
      (hs : (linkType, s) ∈ kw.links.getD [])
      (hrun : (compile s (.row (p.joinName linkType))).run (p.inside linkType)
        = (.ok f, r))
      (h : Yields s (.row (p.joinName linkType)) (p.inside linkType) [f] r) :
      Yields (.node kw) path p
        [.linked p.scope linkType (p.joinName linkType) f]
        (p.outside r linkType f)

namespace Yields

variable [TextLibrary]
variable {s : Schema} {path : ValuePath} {p q : Plan} {fs : List Filter}

/-- Filters that leave the plan as it is. -/
theorem each (h : ∀ f ∈ fs, Yields s path p [f] p) : Yields s path p fs p := by
  induction fs with
  | nil => exact .nothing
  | cons f rest ih =>
      have first : Yields s path p [f] p := h f List.mem_cons_self
      exact first.append (ih fun g hg => h g (List.mem_cons_of_mem f hg))

theorem tests (hrow : path.isRow = true → s.Weighs)
    (h : ∀ f ∈ fs, f.Tests path) : Yields s path p fs p :=
  each fun f hf => .test (h f hf) hrow

/-- A condition on one type.  On a row only what is asked of objects is
    kept. -/
theorem onlyFor (t : JsonType)
    (kept : path.isRow = false ∨ t = .object → Yields s path p fs q)
    (left : path.isRow = true → t ≠ .object → Yields s path p [] q) :
    Yields s path p [Schema.onlyFor t path fs] q := by
  simp only [Schema.onlyFor]
  cases hrow : path.isRow with
  | true =>
      by_cases ht : t = .object
      · have all : Yields s path p [.ofAll fs] q := (kept (.inr ht)).ofAll
        split
        · next halways =>
            rwa [Filter.eq_always halways] at all
        · simpa [ht] using all
      · have none : Yields s path p [.always] q := (left hrow ht).append .always
        simpa [ht] using none
  | false =>
      have all : Yields s path p [.ofAll fs] q := (kept (.inl hrow)).ofAll
      split
      · next halways =>
          rwa [Filter.eq_always halways] at all
      · have typed : Yields s path p [.neg (.typeIs path [t])] p :=
          .neg (.test (.typeIs [t]) (by simp [hrow]))
        exact .disj (typed.append all)

end Yields

/-! ## Keywords without schemas -/

section Plain

variable {kw : Keywords Schema} {path : ValuePath} {p : Plan} {fs : List Filter}

theorem yields_typeFilter [TextLibrary] {s : Schema} (ts : List JsonType) :
    Yields s path p [typeFilter path ts] p := by
  simp only [typeFilter]
  split
  · split
    · exact .always
    · exact .never
  · next hrow => exact .test (.typeIs ts) fun h => absurd h hrow

/-- The filters of a value that may be missing. -/
theorem forall_mem_map {α : Type} {P : Filter → Prop} {value : Option α}
    {filter : α → Filter} (h : ∀ a, value = some a → P (filter a)) :
    ∀ f ∈ value.toList.map filter, P f := by
  intro f hf
  obtain ⟨a, ha, rfl⟩ := List.mem_map.mp hf
  exact h a (Option.mem_toList.mp ha)

variable [TextLibrary]

theorem tests_forEach {α : Type} {value : Option α} {source : α → String}
    {ignoreCase : α → Bool}
    (h : forEach value (fun a => patternFilter path (source a) (ignoreCase a))
      = .ok fs) : ∀ f ∈ fs, f.Tests path := by
  cases value with
  | none =>
      obtain rfl := Except.ok.inj h
      exact List.forall_mem_nil _
  | some a =>
      simp only [forEach, patternFilter] at h
      cases hre : Pattern.ofSource? (source a) (ignoreCase a) with
      | none => rw [hre] at h; cases h
      | some re =>
          rw [hre] at h
          obtain rfl := Except.ok.inj h
          exact List.forall_mem_singleton.mpr (.pattern hre)

theorem tests_stringFilters (h : stringFilters kw path = .ok fs) :
    ∀ f ∈ fs, f.Tests path := by
  obtain ⟨pattern, hpattern, h⟩ := except_bind_ok h
  obtain ⟨regexp, hregexp, h⟩ := except_bind_ok h
  obtain ⟨format, hformat, h⟩ := except_bind_ok h
  obtain rfl := Except.ok.inj h
  simp only [List.forall_mem_append]
  exact ⟨⟨⟨⟨tests_forEach hpattern, tests_forEach hregexp⟩,
    tests_forEach hformat⟩,
    forall_mem_map fun n _ => .length .atLeast n⟩,
    forall_mem_map fun n _ => .length .atMost n⟩

theorem tests_numberFilters (kw : Keywords Schema) (path : ValuePath) :
    ∀ f ∈ numberFilters kw path, f.Tests path := by
  simp only [numberFilters, List.forall_mem_append]
  exact ⟨⟨⟨forall_mem_map fun x _ => .bound .atLeast x,
    forall_mem_map fun x _ => .bound .atMost x⟩,
    forall_mem_map fun x _ => .bound .greater x⟩,
    forall_mem_map fun x _ => .bound .less x⟩

theorem tests_countFilters (kw : Keywords Schema) (path : ValuePath) :
    ∀ f ∈ countFilters kw path, f.Tests path := by
  simp only [countFilters, List.forall_mem_append]
  exact ⟨forall_mem_map fun n _ => .itemCount .atLeast n,
    forall_mem_map fun n _ => .itemCount .atMost n⟩

theorem yields_valueFilters :
    Yields (.node kw) path p (valueFilters kw path) p := by
  refine .each ?_
  simp only [valueFilters, List.forall_mem_append]
  exact ⟨⟨forall_mem_map fun ts _ => yields_typeFilter ts.toList,
    forall_mem_map fun v hv => .test (.equals v) fun _ =>
      .const (by simp [hv])⟩,
    forall_mem_map fun vs hvs => .test (.oneOf vs) fun _ =>
      .enum (by simp [hvs])⟩

theorem yields_searchFilters :
    Yields (.node kw) path p (searchFilters kw path) p :=
  .each (forall_mem_map fun term hterm => .test (.fullText term) fun _ =>
    .search (by simp [hterm]))

theorem yields_requiredFilters :
    Yields (.node kw) path p (requiredFilters kw path) p := by
  refine .each fun f hf => ?_
  obtain ⟨name, -, rfl⟩ := List.mem_map.mp hf
  exact .present name

end Plain

/-! ## Schemas -/

/-- What compiling a schema comes to, at whatever path. -/
def Yielding [TextLibrary] (s : Schema) : Prop :=
  ∀ {path : ValuePath} {p q : Plan} {f : Filter},
    (compile s path).run p = (.ok f, q) → Yields s path p [f] q

section Compiled

variable [TextLibrary]
variable {kw : Keywords Schema} {path : ValuePath} {p q : Plan}
  {fs : List Filter}

/-- Members are quantified over, except on a row, which has none. -/
theorem yields_compileMembers (whole : Schema) {schema : Option Schema}
    (ih : ∀ s ∈ schema.toList, Yielding s) {members : Members}
    {quantifier : Quantifier}
    (h : (compileMembers schema path members quantifier).run p = (.ok fs, q)) :
    (path.isRow = false → Yields whole path p fs q)
      ∧ (path.isRow = true → Yields whole path p [] q) := by
  cases schema with
  | none =>
      obtain ⟨rfl, rfl⟩ := pure_ok h
      exact ⟨fun _ => .nothing, fun _ => .nothing⟩
  | some s =>
      obtain ⟨name, r, hr, h⟩ := bind_ok h
      obtain ⟨f, t, hf, h⟩ := bind_ok h
      obtain ⟨rfl, rfl⟩ := pure_ok h
      obtain ⟨-, rfl⟩ := Prod.mk.inj hr
      have inside := ih s (by simp) hf
      exact ⟨fun hpath => .member members quantifier hpath inside,
        fun hpath => .dropped hpath inside⟩

theorem yields_compileOthers {whole : Schema} {schema : Option Schema}
    (ih : ∀ s ∈ schema.toList, Yielding s) {known : List String}
    (h : (compileOthers schema path known).run p = (.ok fs, q)) :
    Yields whole path p fs q := by
  cases schema with
  | none =>
      obtain ⟨rfl, rfl⟩ := pure_ok h
      exact .nothing
  | some s =>
      simp only [compileOthers] at h
      split at h
      · obtain ⟨rfl, rfl⟩ := pure_ok h
        exact .nothing
      · next hskip =>
          obtain ⟨name, r, hr, h⟩ := bind_ok h
          obtain ⟨f, t, hf, h⟩ := bind_ok h
          obtain ⟨rfl, rfl⟩ := pure_ok h
          obtain ⟨-, rfl⟩ := Prod.mk.inj hr
          have hpath : path.isRow = false := by
            cases hrow : path.isRow <;> simp_all
          exact .member (.others known) .all hpath (ih s (by simp) hf)

theorem yields_compileFields {whole : Schema} {fields : List (String × Schema)}
    (ih : ∀ s ∈ fields.map (·.2), Yielding s)
    (h : (compileFields fields path).run p = (.ok fs, q)) :
    Yields whole path p fs q := by
  induction fields generalizing p q fs with
  | nil =>
      obtain ⟨rfl, rfl⟩ := pure_ok h
      exact .nothing
  | cons field rest rec =>
      obtain ⟨name, s⟩ := field
      obtain ⟨f, r, hf, h⟩ := bind_ok h
      obtain ⟨others, t, ho, h⟩ := bind_ok h
      obtain ⟨rfl, rfl⟩ := pure_ok h
      have own := ih s (by simp) hf
      exact (Yields.property own).append
        (rec (fun s hs => ih s (by simp [hs])) ho)

theorem yields_compileProperties {whole : Schema}
    {fields : Option (List (String × Schema))}
    (ih : ∀ s ∈ Keywords.namedParts fields, Yielding s)
    (h : (compileProperties fields path).run p = (.ok fs, q)) :
    Yields whole path p fs q := by
  cases fields with
  | none =>
      obtain ⟨rfl, rfl⟩ := pure_ok h
      exact .nothing
  | some fields => exact yields_compileFields ih h

theorem yields_compileAll {schemas : List Schema}
    (ih : ∀ s ∈ schemas, Yielding s) (hbranch : ∀ s ∈ schemas, s ∈ kw.branches)
    (h : (compileAll schemas path).run p = (.ok fs, q)) :
    Yields (.node kw) path p fs q := by
  induction schemas generalizing p q fs with
  | nil =>
      obtain ⟨rfl, rfl⟩ := pure_ok h
      exact .nothing
  | cons s rest rec =>
      obtain ⟨f, r, hf, h⟩ := bind_ok h
      obtain ⟨others, t, ho, h⟩ := bind_ok h
      obtain ⟨rfl, rfl⟩ := pure_ok h
      have own : Yields (.node kw) path p [f] r :=
        .branch (hbranch s (by simp)) (ih s (by simp) hf)
      exact own.append (rec (fun s hs => ih s (by simp [hs]))
        (fun s hs => hbranch s (by simp [hs])) ho)

/-- The branches, joined either way. -/
theorem yields_compileBranches {branches : Option (List Schema)}
    (ih : ∀ s ∈ branches.getD [], Yielding s)
    (hbranch : ∀ s ∈ branches.getD [], s ∈ kw.branches)
    {found : Option (List Filter)}
    (h : (compileBranches branches path).run p = (.ok found, q))
    {join : List Filter → Filter}
    (hjoin : ∀ {fs}, Yields (.node kw) path p fs q →
      Yields (.node kw) path p [join fs] q) :
    Yields (.node kw) path p (found.toList.map join) q := by
  cases branches with
  | none =>
      obtain ⟨rfl, rfl⟩ := pure_ok h
      exact .nothing
  | some schemas =>
      obtain ⟨fs, r, hfs, h⟩ := bind_ok h
      obtain ⟨rfl, rfl⟩ := pure_ok h
      exact hjoin (yields_compileAll ih hbranch hfs)

theorem yields_compileNot (ih : ∀ s ∈ kw.not.toList, Yielding s)
    (h : (compileNot kw.not path).run p = (.ok fs, q)) :
    Yields (.node kw) path p fs q := by
  cases hnot : kw.not with
  | none =>
      rw [hnot] at h
      obtain ⟨rfl, rfl⟩ := pure_ok h
      exact .nothing
  | some s =>
      rw [hnot] at h ih
      obtain ⟨f, r, hf, h⟩ := bind_ok h
      obtain ⟨rfl, rfl⟩ := pure_ok h
      exact .neg (.branch (by simp [Keywords.branches, hnot])
        (ih s (by simp) hf))

theorem yields_compileLinkTypes {fields : List (String × Schema)}
    (hrow : path.isRow = true) (ih : ∀ s ∈ fields.map (·.2), Yielding s)
    (hlinks : ∀ field ∈ fields, field ∈ kw.links.getD [])
    (h : (compileLinkTypes fields).run p = (.ok fs, q)) :
    Yields (.node kw) path p fs q := by
  induction fields generalizing p q fs with
  | nil =>
      obtain ⟨rfl, rfl⟩ := pure_ok h
      exact .nothing
  | cons field rest rec =>
      obtain ⟨linkType, s⟩ := field
      obtain ⟨_, _, hget, h⟩ := bind_ok h
      obtain ⟨rfl, rfl⟩ := Prod.mk.inj hget |>.imp_left Except.ok.inj
      obtain ⟨⟨name, f⟩, r, hadd, h⟩ := bind_ok h
      obtain ⟨others, t, ho, h⟩ := bind_ok h
      obtain ⟨rfl, rfl⟩ := pure_ok h
      obtain ⟨rfl, u, hstep, rfl⟩ := Plan.addLink_ok hadd
      obtain ⟨_, _, hget, hstep⟩ := bind_ok hstep
      obtain ⟨rfl, rfl⟩ := Prod.mk.inj hget |>.imp_left Except.ok.inj
      have own : Yields (.node kw) path p
          [.linked p.scope linkType (p.joinName linkType) f]
          (p.outside u linkType f) :=
        .link hrow (hlinks _ List.mem_cons_self) hstep (ih s (by simp) hstep)
      exact own.append (rec (fun s hs => ih s (by simp [hs]))
        (fun field hfield => hlinks field (List.mem_cons_of_mem _ hfield)) ho)

theorem yields_compileLinks
    (ih : ∀ s ∈ Keywords.namedParts kw.links, Yielding s)
    (h : (compileLinks kw.links path).run p = (.ok fs, q)) :
    Yields (.node kw) path p fs q := by
  cases hlinks : kw.links with
  | none =>
      rw [hlinks] at h
      obtain ⟨rfl, rfl⟩ := pure_ok h
      exact .nothing
  | some fields =>
      rw [hlinks] at h ih
      simp only [compileLinks] at h
      split at h
      · next hrow =>
          exact yields_compileLinkTypes hrow ih (by simp [hlinks]) h
      · cases h

end Compiled

/-- A schema that compiles yields its filter. -/
theorem yields [TextLibrary] (s : Schema) : Yielding s := by
  induction s using Schema.induct with
  | bool accepts =>
      intro path p q f h
      cases accepts <;> obtain ⟨rfl, rfl⟩ := pure_ok h
      · exact .never
      · exact .always
  | node kw ih =>
      simp only [Keywords.parts, List.mem_append, or_assoc] at ih
      intro path p q f h
      rw [compile] at h
      obtain ⟨strings, r0, h0, h⟩ := bind_ok h
      have hstrings : stringFilters kw path = .ok strings := congrArg Prod.fst h0
      obtain rfl : p = r0 := congrArg Prod.snd h0
      obtain ⟨items, r1, h1, h⟩ := bind_ok h
      obtain ⟨contains, r2, h2, h⟩ := bind_ok h
      obtain ⟨properties, r3, h3, h⟩ := bind_ok h
      obtain ⟨others, r4, h4, h⟩ := bind_ok h
      obtain ⟨allOf, r5, h5, h⟩ := bind_ok h
      obtain ⟨anyOf, r6, h6, h⟩ := bind_ok h
      obtain ⟨not, r7, h7, h⟩ := bind_ok h
      obtain ⟨types, r8, h8, h⟩ := bind_ok h
      obtain ⟨rfl, rfl⟩ := pure_ok h
      -- tests of the value itself, none of which is kept on a row
      have tested (t : JsonType) (ht : t ≠ .object) {fs : List Filter}
          (hfs : ∀ f ∈ fs, f.Tests path) :
          Yields (.node kw) path p [onlyFor t path fs] p := by
        refine .onlyFor t (fun hkept => ?_) fun _ _ => .nothing
        have hpath : path.isRow = false := hkept.resolve_right ht
        exact .tests (by simp [hpath]) hfs
      have arrays : Yields (.node kw) path p
          [onlyFor .array path (items ++ contains ++ countFilters kw path)]
          r2 := by
        obtain ⟨kept1, left1⟩ := yields_compileMembers (.node kw)
          (fun s hs => ih s (by simp [hs])) h1
        obtain ⟨kept2, left2⟩ := yields_compileMembers (.node kw)
          (fun s hs => ih s (by simp [hs])) h2
        refine .onlyFor .array (fun hkept => ?_) fun hrow _ =>
          (left1 hrow).append (left2 hrow)
        have hpath : path.isRow = false := by simpa using hkept
        exact ((kept1 hpath).append (kept2 hpath)).append
          (.tests (by simp [hpath]) (tests_countFilters kw path))
      have objects : Yields (.node kw) path r2
          (requiredFilters kw path ++ properties ++ others) r4 :=
        (yields_requiredFilters.append
          (yields_compileProperties (fun s hs => ih s (by simp [hs])) h3)).append
          (yields_compileOthers (fun s hs => ih s (by simp [hs])) h4)
      have byType : Yields (.node kw) path p
          [onlyFor .string path strings,
            onlyFor .number path (numberFilters kw path),
            onlyFor .array path (items ++ contains ++ countFilters kw path),
            onlyFor .object path
              (requiredFilters kw path ++ properties ++ others)] r4 :=
        ((tested .string (by decide) (tests_stringFilters hstrings)).append
          (tested .number (by decide) (tests_numberFilters kw path))).append
          (arrays.append (.onlyFor .object (fun _ => objects)
            fun _ hobject => absurd rfl hobject))
      have hall : ∀ s ∈ kw.allOf.getD [], s ∈ kw.branches := fun s hs => by
        simp [Keywords.branches, hs]
      have hany : ∀ s ∈ kw.anyOf.getD [], s ∈ kw.branches := fun s hs => by
        simp [Keywords.branches, hs]
      exact .ofAll ((((((yields_valueFilters.append byType).append
        yields_searchFilters).append
        (yields_compileBranches (fun s hs => ih s (by simp [hs])) hall h5 .conj)).append
        (yields_compileBranches (fun s hs => ih s (by simp [hs])) hany h6 .disj)).append
        (yields_compileNot (fun s hs => ih s (by simp [hs])) h7)).append
        (yields_compileLinks (fun s hs => ih s (by simp [hs])) h8))

end Schema

end LinkedContracts
