import LinkedContracts.Proofs.Compile.Yields
import LinkedContracts.Proofs.Selection.Paths

/-! # What a schema selects

    A schema selects what its keywords name: `Schema.Selects` has one rule for
    each way to name a path.  A link that is asked for below a property is a
    link of the contract, whatever the property; so a path below a property has
    steps to properties only.

    The selection that a schema implies has these paths and no others.  The
    induction is over schemas; each keyword adds its paths to those of the
    keywords before it. -/

namespace LinkedContracts

namespace Keywords

variable {σ : Type} {kw : Keywords σ} {p : String × σ}

theorem mem_parts_of_property (h : p ∈ kw.properties.getD []) : p.2 ∈ kw.parts := by
  have hnamed : p.2 ∈ namedParts kw.properties := List.mem_map_of_mem h
  simp [parts, hnamed]

theorem mem_parts_of_link (h : p ∈ kw.links.getD []) : p.2 ∈ kw.parts := by
  have hnamed : p.2 ∈ namedParts kw.links := List.mem_map_of_mem h
  simp [parts, hnamed]

end Keywords

namespace Schema

/-- The dictionaries of a schema are in order, at every depth. -/
inductive WellFormed : Schema → Prop where
  | bool (accepts : Bool) : WellFormed (.bool accepts)
  | node {kw : Keywords Schema} (hproperties : Dict.Sorted (kw.properties.getD []))
      (hlinks : Dict.Sorted (kw.links.getD [])) (h : ∀ s ∈ kw.parts, s.WellFormed) :
      WellFormed (.node kw)

/-- The paths that a schema names. -/
inductive Selects : Schema → List Step → Prop where
  /-- What leads to the paths of a schema. -/
  | root (s : Schema) : Selects s []
  | required {kw : Keywords Schema} {name : String}
      (hname : name ∈ kw.required.getD []) : Selects (.node kw) [.property name]
  | described {kw : Keywords Schema} {name : String} {t : Schema}
      (ht : (name, t) ∈ kw.properties.getD []) : Selects (.node kw) [.property name]
  /-- A path below a property. -/
  | property {kw : Keywords Schema} {name : String} {t : Schema} {path : List Step}
      (ht : (name, t) ∈ kw.properties.getD []) (h : Selects t path)
      (hpath : ∀ step ∈ path, step.isProperty = true) :
      Selects (.node kw) (.property name :: path)
  | link {kw : Keywords Schema} {linkType : String} {t : Schema} {path : List Step}
      (ht : (linkType, t) ∈ kw.links.getD []) (h : Selects t path) :
      Selects (.node kw) (.link linkType :: path)
  /-- A link path below a property is one of the contract. -/
  | lifted {kw : Keywords Schema} {name linkType : String} {t : Schema}
      {path : List Step} (ht : (name, t) ∈ kw.properties.getD [])
      (h : Selects t (.link linkType :: path)) :
      Selects (.node kw) (.link linkType :: path)
  | branch {kw : Keywords Schema} {t : Schema} {path : List Step}
      (ht : t ∈ kw.branches) (h : Selects t path) : Selects (.node kw) path

/-- Below a property a path has steps to properties only. -/
theorem Selects.below_property {s : Schema} {path rest : List Step} {name : String}
    (h : s.Selects path) (hpath : path = .property name :: rest) :
    ∀ step ∈ rest, step.isProperty = true := by
  induction h with
  | root | link | lifted => cases hpath
  | required | described => cases hpath; exact List.forall_mem_nil _
  | property _ _ hproperties => cases hpath; exact hproperties
  | branch _ _ ih => exact ih hpath

/-- The paths of a schema that do not start with a link never take one. -/
theorem Selects.all_properties {s : Schema} {path : List Step} (h : s.Selects path)
    (hhead : ∀ linkType, path.head? ≠ some (.link linkType)) :
    ∀ step ∈ path, step.isProperty = true := by
  cases path with
  | nil => exact List.forall_mem_nil _
  | cons step rest =>
      cases step with
      | property name => exact List.forall_mem_cons.mpr ⟨rfl, h.below_property rfl⟩
      | link linkType => exact absurd rfl (hhead linkType)

end Schema

namespace Selection

variable {s own : Selection} {path rest : List Step} {name key : String}

/-! ## One keyword at a time -/

/-- A path of a selection without its links. -/
theorem has_properties : Has ⟨s.properties, []⟩ path
    ↔ s.Has path ∧ ∀ linkType, path.head? ≠ some (.link linkType) := by
  cases path with
  | nil => simp
  | cons step rest => cases step <;> simp [has_cons, after?]

theorem WellFormed.properties (h : s.WellFormed) : WellFormed ⟨s.properties, []⟩ := by
  obtain ⟨hproperties, -, h⟩ := h
  exact .mk hproperties Dict.sorted_nil fun p hp => h p (by simpa using Or.inl hp)

/-- Adding a property is merging in what is below it, and the links from
    there. -/
theorem addProperty_eq (s : Selection) (name : String) (sub : Selection) :
    s.addProperty name sub
      = s.merge ⟨[(name, ⟨sub.properties, []⟩)], sub.links⟩ := rfl

theorem WellFormed.added {sub : Selection} (h : sub.WellFormed) (name : String) :
    WellFormed ⟨[(name, ⟨sub.properties, []⟩)], sub.links⟩ := by
  have hproperties := h.properties
  obtain ⟨-, hlinks, h⟩ := h
  refine .mk (by simp [Dict.sorted_cons, Dict.sorted_nil]) hlinks fun p hp => ?_
  rcases List.mem_cons.mp hp with rfl | hp
  · exact hproperties
  · exact h p (List.mem_append_right _ hp)

/-- The paths that a property adds, by what is selected of its value. -/
inductive Adds (name : String) (sub : Selection) : List Step → Prop where
  | property {rest : List Step} (h : sub.Has rest)
      (hrest : ∀ linkType, rest.head? ≠ some (.link linkType)) :
      Adds name sub (.property name :: rest)
  | link {linkType : String} {rest : List Step} (h : sub.Has (.link linkType :: rest)) :
      Adds name sub (.link linkType :: rest)

theorem has_addProperty {sub : Selection} (h : sub.WellFormed) :
    (s.addProperty name sub).Has path ↔ s.Has path ∨ Adds name sub path := by
  rw [addProperty_eq, (h.added name).has_merge]
  match path with
  | [] => simp
  | .link linkType :: rest =>
      refine or_congr_right ⟨fun h => .link (show sub.Has _ from h), ?_⟩
      rintro (_ | h)
      exact h
  | .property key :: rest =>
      refine or_congr_right ⟨?_, ?_⟩
      · rintro ⟨part, hpart, hrest⟩
        obtain ⟨hkey, heq⟩ : name = key ∧ _ = part := by
          simpa [after?, Dict.find?_cons] using hpart
        subst hkey heq
        obtain ⟨hrest, hhead⟩ := has_properties.mp hrest
        exact .property hrest hhead
      · rintro ⟨hrest, hhead⟩
        exact ⟨_, by simp [after?, Dict.find?_cons], has_properties.mpr ⟨hrest, hhead⟩⟩

/-- Adding names adds the properties of these names. -/
theorem has_addNames {names : List String} :
    (s.addNames names).Has path ↔ s.Has path ∨ ∃ name ∈ names, path = [.property name] := by
  cases path with
  | nil => simp
  | cons step rest =>
      cases step with
      | link linkType => simp [addNames, has_cons, after?]
      | property key =>
          have hmerge : ∀ p ∈ names.map fun name => (name, empty),
              ∀ (base : Selection) (rest : List Step),
                (base.merge p.2).Has rest ↔ base.Has rest ∨ p.2.Has rest := by
            rintro p hp base rest
            obtain ⟨name, -, rfl⟩ := List.mem_map.mp hp
            exact wellFormed_empty.has_merge base rest
          refine (has_mergeAll hmerge s.properties).trans (or_congr_right ⟨?_, ?_⟩)
          · rintro ⟨sub, hsub, hrest⟩
            obtain ⟨name, hname, heq⟩ := List.mem_map.mp hsub
            obtain ⟨rfl, rfl⟩ := Prod.mk.inj heq
            cases rest with
            | nil => exact ⟨name, hname, rfl⟩
            | cons step rest => exact absurd hrest not_has_empty_cons
          · rintro ⟨name, hname, heq⟩
            obtain ⟨hkey, rfl⟩ := List.cons.inj heq
            obtain rfl := Step.property.inj hkey
            exact ⟨empty, List.mem_map_of_mem hname, has_nil empty⟩

/-! ## Keywords with schemas -/

/-- What branches add. -/
theorem has_ofAll {branches : List Schema}
    (h : ∀ t ∈ branches, (ofSchema t).WellFormed) :
    (ofAll own branches).Has path ↔ own.Has path
      ∨ ∃ t ∈ branches, (ofSchema t).Has path := by
  induction branches generalizing own with
  | nil => simp [ofAll]
  | cons t branches ih =>
      obtain ⟨ht, hrest⟩ := List.forall_mem_cons.mp h
      rw [ofAll, ih hrest, ht.has_merge, or_assoc]
      simp

theorem ofBranches_eq (own : Selection) (branches : Option (List Schema)) :
    ofBranches own branches = ofAll own (branches.getD []) := by
  cases branches <;> rfl

theorem ofNot_eq (own : Selection) (negated : Option Schema) :
    ofNot own negated = ofAll own negated.toList := by
  cases negated <;> rfl

theorem ofAll_append (own : Selection) (first more : List Schema) :
    ofAll own (first ++ more) = ofAll (ofAll own first) more := by
  induction first generalizing own with
  | nil => rfl
  | cons t first ih => exact ih _

/-- What properties add. -/
theorem has_ofFields {fields : List (String × Schema)}
    (h : ∀ p ∈ fields, (ofSchema p.2).WellFormed) :
    (ofFields own fields).Has path ↔ own.Has path
      ∨ ∃ p ∈ fields, Adds p.1 (ofSchema p.2) path := by
  induction fields generalizing own with
  | nil => simp [ofFields]
  | cons p fields ih =>
      obtain ⟨hp, hrest⟩ := List.forall_mem_cons.mp h
      rw [ofFields, ih hrest, has_addProperty hp, or_assoc]
      simp

theorem ofProperties_eq (own : Selection) (fields : Option (List (String × Schema))) :
    ofProperties own fields = ofFields own (fields.getD []) := by
  cases fields <;> rfl

theorem ofLinks_eq (links : Option (List (String × Schema))) :
    ofLinks links = Dict.mapValues ofSchema (links.getD []) := by
  cases links with
  | none => rfl
  | some links =>
      show ofDict links = _
      induction links with
      | nil => rfl
      | cons p links ih => rw [ofDict, ih]; rfl

/-- The selection of a schema, keyword by keyword. -/
theorem ofSchema_node (kw : Keywords Schema) :
    ofSchema (.node kw) = ofAll (ofFields
      ((⟨[], Dict.mapValues ofSchema (kw.links.getD [])⟩ : Selection).addNames
        (kw.required.getD [])) (kw.properties.getD [])) kw.branches := by
  rw [ofSchema, Keywords.branches, ofAll_append, ofAll_append, ofNot_eq, ofBranches_eq,
    ofBranches_eq, ofProperties_eq, ofLinks_eq]

/-! ## Well-formed selections -/

theorem WellFormed.addNames (hs : s.WellFormed) (names : List String) :
    (s.addNames names).WellFormed := by
  obtain ⟨hproperties, hlinks, h⟩ := hs
  have hmerge : ∀ p ∈ names.map (fun name => (name, empty)), ∀ base : Selection,
      base.WellFormed → (base.merge p.2).WellFormed := by
    rintro p hp base hbase
    obtain ⟨name, -, rfl⟩ := List.mem_map.mp hp
    exact wellFormed_empty.merge hbase
  obtain ⟨hsorted, hall⟩ := wellFormed_mergeAll hmerge hproperties
    fun p hp => h p (List.mem_append_left _ hp)
  exact .mk hsorted hlinks (List.forall_mem_append.mpr
    ⟨hall, fun p hp => h p (List.mem_append_right _ hp)⟩)

theorem WellFormed.ofAll {branches : List Schema}
    (h : ∀ t ∈ branches, (ofSchema t).WellFormed) (hown : own.WellFormed) :
    (ofAll own branches).WellFormed := by
  induction branches generalizing own with
  | nil => exact hown
  | cons t branches ih =>
      obtain ⟨ht, hrest⟩ := List.forall_mem_cons.mp h
      exact ih hrest (ht.merge hown)

theorem WellFormed.ofFields {fields : List (String × Schema)}
    (h : ∀ p ∈ fields, (ofSchema p.2).WellFormed) (hown : own.WellFormed) :
    (ofFields own fields).WellFormed := by
  induction fields generalizing own with
  | nil => exact hown
  | cons p fields ih =>
      obtain ⟨hp, hrest⟩ := List.forall_mem_cons.mp h
      exact ih hrest ((hp.added p.1).merge hown)

/-- A schema implies a well-formed selection. -/
theorem wellFormed_ofSchema {schema : Schema} (h : schema.WellFormed) :
    (ofSchema schema).WellFormed := by
  induction h with
  | bool => exact wellFormed_empty
  | @node kw _ hlinks _ ih =>
      have hbranch (t : Schema) (ht : t ∈ kw.branches) : (ofSchema t).WellFormed :=
        ih t (Keywords.mem_parts_of_branch ht)
      have hproperty (p : String × Schema) (hp : p ∈ kw.properties.getD []) :
          (ofSchema p.2).WellFormed :=
        ih p.2 (Keywords.mem_parts_of_property hp)
      have hlinked : WellFormed ⟨[], Dict.mapValues ofSchema (kw.links.getD [])⟩ := by
        refine .mk Dict.sorted_nil (hlinks.mapValues _) fun p hp => ?_
        obtain ⟨q, hq, rfl⟩ := List.mem_map.mp hp
        exact ih q.2 (Keywords.mem_parts_of_link hq)
      rw [ofSchema_node]
      exact .ofAll hbranch (.ofFields hproperty (hlinked.addNames _))

/-! ## The paths of a schema -/

/-- The selection that a schema implies has the paths that its keywords
    name. -/
theorem has_ofSchema {schema : Schema} (h : schema.WellFormed) (path : List Step) :
    (ofSchema schema).Has path ↔ schema.Selects path := by
  induction h generalizing path with
  | bool accepts =>
      cases path with
      | nil => exact ⟨fun _ => .root _, fun _ => trivial⟩
      | cons step rest =>
          exact ⟨fun h => absurd h not_has_empty_cons, nofun⟩
  | @node kw _ hlinks hparts ih =>
      have hbranch (t : Schema) (ht : t ∈ kw.branches) :=
        ih t (Keywords.mem_parts_of_branch ht)
      have hproperty (p : String × Schema) (hp : p ∈ kw.properties.getD []) :=
        ih p.2 (Keywords.mem_parts_of_property hp)
      have hlink (p : String × Schema) (hp : p ∈ kw.links.getD []) :=
        ih p.2 (Keywords.mem_parts_of_link hp)
      rw [ofSchema_node,
        has_ofAll fun t ht =>
          wellFormed_ofSchema (hparts t (Keywords.mem_parts_of_branch ht)),
        has_ofFields fun p hp =>
          wellFormed_ofSchema (hparts p.2 (Keywords.mem_parts_of_property hp)),
        has_addNames]
      constructor
      · rintro (((hown | ⟨name, hname, rfl⟩) | ⟨p, hp, hadds⟩) | ⟨t, ht, hpath⟩)
        · match path, hown with
          | [], _ => exact .root _
          | .property name :: rest, hown => obtain ⟨sub, hsub, -⟩ := hown; cases hsub
          | .link linkType :: rest, hown =>
              obtain ⟨sub, hsub, hrest⟩ := hown
              obtain ⟨t, ht, rfl⟩ := Option.map_eq_some_iff.mp
                ((Dict.find?_mapValues _ _ _).symm.trans hsub)
              have hmem := Dict.mem_of_find? ht
              exact .link hmem ((hlink _ hmem rest).mp hrest)
        · exact .required hname
        · cases hadds with
          | property hrest hhead =>
              have hselects := (hproperty p hp _).mp hrest
              exact .property hp hselects (hselects.all_properties hhead)
          | link hrest => exact .lifted hp ((hproperty p hp _).mp hrest)
        · exact .branch ht ((hbranch t ht path).mp hpath)
      · intro hselects
        cases hselects with
        | root => exact .inl (.inl (.inl trivial))
        | required hname => exact .inl (.inl (.inr ⟨_, hname, rfl⟩))
        | described ht =>
            exact .inl (.inr ⟨_, ht, .property trivial nofun⟩)
        | property ht hbelow hproperties =>
            refine .inl (.inr ⟨_, ht, .property ((hproperty _ ht _).mpr hbelow) ?_⟩)
            intro linkType hhead
            exact absurd (hproperties _ (List.mem_of_mem_head? hhead)) nofun
        | link ht hbelow =>
            refine .inl (.inl (.inl ⟨_, ?_, (hlink _ ht _).mpr hbelow⟩))
            exact (Dict.find?_mapValues _ _ _).trans
              (congrArg (Option.map ofSchema) (hlinks.find?_eq_some.mpr ht))
        | lifted ht hbelow =>
            exact .inl (.inr ⟨_, ht, .link ((hproperty _ ht _).mpr hbelow)⟩)
        | branch ht hbelow => exact .inr ⟨_, ht, (hbranch _ ht path).mpr hbelow⟩

/-- Selections are sets of paths, each with all that leads to it, and are known
    by them.  Merging is union, rectifying is intersection, and a schema implies
    the selection of the paths that its keywords name. -/
theorem paths_faithful :
    (∀ (s : Selection) (path more : List Step), path ++ more ∈ s.paths → path ∈ s.paths)
    ∧ (∀ s t : Selection, s.WellFormed → t.WellFormed → s.paths = t.paths → s = t)
    ∧ (∀ s t : Selection, t.WellFormed → (s.merge t).paths = s.paths ∪ t.paths)
    ∧ (∀ s t : Selection, (s.rectify t).paths = s.paths ∩ t.paths)
    ∧ ∀ schema : Schema, schema.WellFormed →
      (ofSchema schema).paths = {path | schema.Selects path} :=
  ⟨fun _ _ _ h => Has.of_append h, fun _ _ hs ht => hs.eq_of_paths ht,
    fun s _ ht => ht.paths_merge s, paths_rectify,
    fun _ h => Set.ext (has_ofSchema h)⟩

/-- A schema that asks for links below a property and in a branch, of one link
    type. -/
theorem paths_faithful_owned :
    let owner (name : String) : Schema :=
      .node { links := some [("is owned by", .node { required := some [name] })] }
    let s : Schema := .node
      { required := some ["slug"]
        properties := some [("data", owner "name")]
        not := some (owner "slug") }
    s.WellFormed
      ∧ (ofSchema s).paths = {path | s.Selects path}
      ∧ ((ofSchema s).merge (ofSchema s)).paths = (ofSchema s).paths ∪ (ofSchema s).paths
      ∧ (∀ t : Selection, t.WellFormed → (ofSchema s).paths = t.paths → ofSchema s = t)
      ∧ [.link "is owned by", .property "name"] ∈ (ofSchema s).paths
      ∧ [.link "is owned by", .property "slug"] ∈ (ofSchema s).paths
      ∧ [.property "data", .link "is owned by"] ∉ (ofSchema s).paths := by
  intro owner s
  have hnames (names : List String) : Schema.WellFormed (.node { required := some names }) :=
    .node Dict.sorted_nil Dict.sorted_nil (List.forall_mem_nil _)
  have howner (name : String) : (owner name).WellFormed := by
    refine .node Dict.sorted_nil (by simp [Dict.sorted_cons, Dict.sorted_nil]) ?_
    simpa [Keywords.parts, Keywords.namedParts] using hnames [name]
  have hs : s.WellFormed := by
    refine .node (by simp [Dict.sorted_cons, Dict.sorted_nil]) Dict.sorted_nil ?_
    simp [Keywords.parts, Keywords.namedParts, howner]
  obtain ⟨-, hknown, hmerge, hrectify, hschema⟩ := paths_faithful
  refine ⟨hs, hschema s hs, hmerge _ _ (wellFormed_ofSchema hs),
    fun t => hknown _ t (wellFormed_ofSchema hs), ?_, ?_, ?_⟩
  all_goals rw [hschema s hs]
  · exact .lifted List.mem_cons_self (.link List.mem_cons_self (.required List.mem_cons_self))
  · exact .branch List.mem_cons_self (.link List.mem_cons_self (.required List.mem_cons_self))
  · intro h
    cases Schema.Selects.below_property h rfl _ List.mem_cons_self

end Selection

end LinkedContracts
