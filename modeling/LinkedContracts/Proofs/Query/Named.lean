import LinkedContracts.Proofs.Compile.Masked
import LinkedContracts.Proofs.Query.Attached
import LinkedContracts.Proofs.Schema.Induction
import LinkedContracts.Query.Masked

/-! # What queries name

    A schema names the properties that it requires or describes, in whatever
    branch.  Behind a mask a query selects those that the mask does not
    forbid.  A selection of no properties is one of everything, so that a
    query of which the mask forbids all that it names selects whole
    contracts.

    The induction over schemas is done once, for the names that pruning
    leaves. -/

namespace LinkedContracts

namespace Schema

/-- Whether a schema names a property of what it is asked of. -/
def Names (s : Schema) (key : String) : Prop :=
  key ∈ Dict.keys (Selection.ofSchema s).properties

instance (s : Schema) (key : String) : Decidable (s.Names key) :=
  inferInstanceAs (Decidable (key ∈ Dict.keys (Selection.ofSchema s).properties))

end Schema

namespace Selection

variable {key : String}

/-! ## Names of selections -/

theorem mem_keys_mergeAll {base : Dict Selection} {named : List (String × Selection)} :
    key ∈ Dict.keys (mergeAll base named)
      ↔ key ∈ Dict.keys base ∨ key ∈ named.map (·.1) := by
  induction named generalizing base with
  | nil => simp [mergeAll]
  | cons p rest ih =>
      obtain ⟨name, s⟩ := p
      rw [mergeAll, ih, Dict.mem_keys_insert, List.map_cons, List.mem_cons,
        or_assoc, or_left_comm]

theorem mem_keys_merge {base s : Selection} :
    key ∈ Dict.keys (base.merge s).properties
      ↔ key ∈ Dict.keys base.properties ∨ key ∈ Dict.keys s.properties := by
  cases s
  exact mem_keys_mergeAll

theorem mem_keys_ofAll {own : Selection} {schemas : List Schema} :
    key ∈ Dict.keys (ofAll own schemas).properties
      ↔ key ∈ Dict.keys own.properties ∨ ∃ s ∈ schemas, s.Names key := by
  induction schemas generalizing own with
  | nil => simp [ofAll]
  | cons s rest ih =>
      rw [ofAll, ih, mem_keys_merge, List.exists_mem_cons_iff, or_assoc]
      rfl

theorem mem_keys_ofBranches {own : Selection} {branches : Option (List Schema)} :
    key ∈ Dict.keys (ofBranches own branches).properties
      ↔ key ∈ Dict.keys own.properties ∨ ∃ s ∈ branches.getD [], s.Names key := by
  cases branches with
  | none => simp [ofBranches]
  | some schemas => exact mem_keys_ofAll

theorem mem_keys_ofFields {own : Selection} {fields : List (String × Schema)} :
    key ∈ Dict.keys (ofFields own fields).properties
      ↔ key ∈ Dict.keys own.properties ∨ key ∈ Dict.keys fields := by
  induction fields generalizing own with
  | nil => simp [ofFields, Dict.keys]
  | cons p rest ih =>
      obtain ⟨name, s⟩ := p
      have hown : key ∈ Dict.keys (own.addProperty name (ofSchema s)).properties
          ↔ key ∈ Dict.keys own.properties ∨ key = name := by
        rw [addProperty, mem_keys_mergeAll, List.map_singleton, List.mem_singleton]
      rw [ofFields, ih, hown, Dict.mem_keys_cons, or_assoc]

theorem mem_keys_ofProperties {own : Selection}
    {properties : Option (List (String × Schema))} :
    key ∈ Dict.keys (ofProperties own properties).properties
      ↔ key ∈ Dict.keys own.properties
        ∨ key ∈ Dict.keys (properties.getD []) := by
  cases properties with
  | none => simp [ofProperties, Dict.keys]
  | some fields => exact mem_keys_ofFields

theorem mem_keys_ofNot {own : Selection} {negated : Option Schema} :
    key ∈ Dict.keys (ofNot own negated).properties
      ↔ key ∈ Dict.keys own.properties ∨ ∃ s ∈ negated.toList, s.Names key := by
  cases negated with
  | none => simp [ofNot]
  | some s => simp [ofNot, mem_keys_merge, Schema.Names]

theorem mem_keys_rectify {s allowed : Selection} :
    key ∈ Dict.keys (s.rectify allowed).properties
      ↔ key ∈ Dict.keys s.properties ∧ key ∈ Dict.keys allowed.properties := by
  obtain ⟨properties, links⟩ := s
  show key ∈ Dict.keys (rectifyAll properties allowed.properties) ↔ _
  induction properties with
  | nil => simp [rectifyAll, Dict.keys]
  | cons p rest ih =>
      obtain ⟨name, sub⟩ := p
      rw [rectifyAll, Dict.mem_keys_cons]
      cases hfind : Dict.find? allowed.properties name with
      | some a =>
          have hname : name ∈ Dict.keys allowed.properties :=
            List.mem_map_of_mem (Dict.mem_of_find? hfind)
          rw [Dict.mem_keys_cons, ih]
          constructor
          · rintro (rfl | h)
            · exact ⟨.inl rfl, hname⟩
            · exact ⟨.inr h.1, h.2⟩
          · rintro ⟨rfl | h, hallowed⟩
            · exact .inl rfl
            · exact .inr ⟨h, hallowed⟩
      | none =>
          have hname : name ∉ Dict.keys allowed.properties := Dict.find?_eq_none.mp hfind
          rw [ih]
          constructor
          · exact fun h => ⟨.inr h.1, h.2⟩
          · rintro ⟨rfl | h, hallowed⟩
            · exact absurd hallowed hname
            · exact ⟨h, hallowed⟩

end Selection

/-! ## Names of schemas -/

namespace Schema

variable {mask : Schema} {key : String}

theorem not_names_bool (accepts : Bool) : ¬(Schema.bool accepts).Names key :=
  List.not_mem_nil

/-- A schema names what it requires, what it describes, and what its branches
    name. -/
theorem names_node {kw : Keywords Schema} :
    (Schema.node kw).Names key
      ↔ key ∈ kw.required.getD [] ∨ key ∈ Dict.keys (kw.properties.getD [])
        ∨ ∃ s ∈ kw.branches, s.Names key := by
  have hnames : key ∈ Dict.keys (Selection.addNames ⟨[], Selection.ofLinks kw.links⟩
      (kw.required.getD [])).properties ↔ key ∈ kw.required.getD [] := by
    rw [Selection.addNames, Selection.mem_keys_mergeAll]
    simp [Dict.keys]
  rw [Names, Selection.ofSchema, Selection.mem_keys_ofNot, Selection.mem_keys_ofBranches,
    Selection.mem_keys_ofBranches, Selection.mem_keys_ofProperties, hnames]
  simp only [Keywords.branches, List.mem_append, or_and_right, exists_or, or_assoc]

end Schema

namespace Mask

variable {mask : Schema} {key : String}

theorem keys_pruneFields (fields : List (String × Schema)) (mask : Schema) :
    Dict.keys (pruneFields fields mask)
      = (Dict.keys fields).filter fun name => !forbids mask name := by
  induction fields with
  | nil => rfl
  | cons field rest ih =>
      obtain ⟨name, s⟩ := field
      rw [pruneFields]
      cases hforbids : forbids mask name with
      | true => simpa [Dict.keys, hforbids] using ih
      | false => simpa [Dict.keys, hforbids] using ih

theorem keys_pruneProperties (properties : Option (List (String × Schema)))
    (mask : Schema) :
    Dict.keys ((pruneProperties properties mask).getD [])
      = (Dict.keys (properties.getD [])).filter fun name => !forbids mask name := by
  cases properties with
  | none => rfl
  | some fields => exact keys_pruneFields fields mask

/-- What is left of a query names what the query names and the mask does not
    forbid. -/
theorem names_prune (s mask : Schema) :
    (prune s mask).Names key ↔ s.Names key ∧ forbids mask key = false := by
  induction s using Schema.induct with
  | bool accepts =>
      exact iff_of_false (Schema.not_names_bool accepts) fun h =>
        Schema.not_names_bool accepts h.1
  | node kw ih =>
      -- the branches are parts, and are pruned by the same mask
      have hbranches : ∀ s ∈ kw.branches,
          ((prune s mask).Names key ↔ s.Names key ∧ forbids mask key = false) :=
        fun s hs => ih s (Keywords.mem_parts_of_branch hs)
      obtain ⟨pruned, hpruned⟩ : ∃ pruned, prune (.node kw) mask = .node pruned :=
        ⟨_, by rw [prune]⟩
      rw [hpruned, Schema.names_node, Schema.names_node, branches_prune hpruned]
      rw [prune] at hpruned
      obtain rfl := Schema.node.inj hpruned
      have hrequired : key ∈ (kw.required.map fun names =>
          names.filter fun name => !forbids mask name).getD []
          ↔ key ∈ kw.required.getD [] ∧ forbids mask key = false := by
        cases kw.required <;> simp
      have hdescribed : key ∈ Dict.keys ((pruneProperties kw.properties mask).getD [])
          ↔ key ∈ Dict.keys (kw.properties.getD []) ∧ forbids mask key = false := by
        simp [keys_pruneProperties]
      have hbranch : (∃ t ∈ kw.branches.map (prune · mask), t.Names key)
          ↔ (∃ s ∈ kw.branches, s.Names key) ∧ forbids mask key = false := by
        simp only [List.mem_map, exists_exists_and_eq_and]
        constructor
        · rintro ⟨s, hs, hnames⟩
          obtain ⟨hname, hforbids⟩ := (hbranches s hs).mp hnames
          exact ⟨⟨s, hs, hname⟩, hforbids⟩
        · rintro ⟨⟨s, hs, hname⟩, hforbids⟩
          exact ⟨s, hs, (hbranches s hs).mpr ⟨hname, hforbids⟩⟩
      rw [hrequired, hdescribed, hbranch, or_and_right, or_and_right]

end Mask

namespace Query

variable {mask schema : Schema} {key : String}

/-- Behind a mask is selected what the query names and the mask does not
    forbid. -/
theorem mem_keys_maskedSelection :
    key ∈ Dict.keys (maskedSelection mask schema).properties
      ↔ schema.Names key ∧ Mask.forbids mask key = false := by
  rw [maskedSelection, Selection.mem_keys_rectify]
  show schema.Names key ∧ (Mask.prune schema mask).Names key ↔ _
  rw [Mask.names_prune, and_self_left]

/-- No property is selected where the mask forbids all that the query
    names. -/
theorem maskedSelection_eq_nil :
    (maskedSelection mask schema).properties = []
      ↔ ∀ name, schema.Names name → Mask.forbids mask name = true := by
  rw [← List.map_eq_nil_iff (f := Prod.fst), List.eq_nil_iff_forall_not_mem]
  refine forall_congr' fun name => ?_
  show name ∉ Dict.keys _ ↔ _
  rw [mem_keys_maskedSelection, not_and, Bool.not_eq_false]

end Query

/-! ## Fields of results -/

namespace Query

variable {tables : Tables} {select : Selection} {schema : Schema}
  {options : QueryOptions} {q : Query} {c : Json} {key : String}

/-- Linked contracts aside, a result is what is selected of the contract. -/
theorem field?_reshape [TextLibrary] (h : compile tables select schema options = .ok q) (c : Json)
    (found : List LinkMatch) (hkey : key ≠ "links") :
    (q.reshape (q.rowOf c found)).field? key = (q.select.project c).field? key := by
  have hcontract : (q.rowOf c found).field? "contract" = some (q.select.project c) :=
    find?_columns h (by decide)
  rw [reshape, hcontract, Option.getD_some]
  split
  · rfl
  · exact field?_withLinks _ hkey

/-- The result of a contract is that of a row of it. -/
theorem row_of_evaluate {source : LinkSource} {result : Json}
    (h : q.evaluate c source = .ok (some result)) :
    ∃ found, result = q.reshape (q.rowOf c found) := by
  rw [evaluate, evaluateRow] at h
  cases hmatch : q.filter.matchContract source q.tables.contracts c with
  | error e => rw [hmatch] at h; cases h
  | ok found =>
      rw [hmatch] at h
      cases found with
      | none => cases h
      | some found => exact ⟨found, (Option.some.inj (Except.ok.inj h)).symm⟩

end Query

end LinkedContracts
