import LinkedContracts.Proofs.Schema.Induction
import LinkedContracts.Proofs.Schema.Reading

/-! # What a schema reads of a contract

    A schema that asks for no links and compares no contract as a whole
    reads columns of the contract only.  Contracts that agree on these
    columns meet it both or neither, whatever is linked to them. -/

namespace LinkedContracts

/-- Whether contracts have the same fields but for one. -/
def Json.SameBut (key : String) (a b : Json) : Prop :=
  ∀ other, other ≠ key → a.field? other = b.field? other

namespace Schema

/-- Whether all that a schema reads of a contract are some columns. -/
inductive Reads (columns : List String) : Schema → Prop where
  | bool (accepts : Bool) : Reads columns (.bool accepts)
  | node (kw : Keywords Schema) (const : kw.const = none) (enum : kw.enum = none)
      (search : kw.fullTextSearch.bind FullTextSearch.term? = none)
      (links : kw.links = none)
      (properties : ∀ p ∈ kw.properties.getD [],
        p.1 ∈ ValuePath.columns → p.1 ∈ columns)
      (allOf : ∀ s ∈ kw.allOf.getD [], Reads columns s)
      (anyOf : ∀ s ∈ kw.anyOf.getD [], Reads columns s)
      (not : ∀ s ∈ kw.not.toList, Reads columns s) : Reads columns (.node kw)

/-- Whether contracts have the same values in some columns. -/
def AgreeOn (columns : List String) (a b : Json) : Prop :=
  ∀ key ∈ columns, (a.field? key).getD .null = (b.field? key).getD .null

variable {links links' : Json → String → List Json} {columns : List String}
  {place : Place} {a b : Json}

theorem Reads.conj {branches : List Schema} (h : ∀ s ∈ branches, s.Reads columns) :
    (Schema.conj branches).Reads columns :=
  .node { allOf := some branches } rfl rfl rfl rfl nofun h nofun nofun

theorem Reads.disj {branches : List Schema} (h : ∀ s ∈ branches, s.Reads columns) :
    (Schema.disj branches).Reads columns :=
  .node { anyOf := some branches } rfl rfl rfl rfl nofun nofun h nofun

/-! ## Parts that are met alike -/

variable [TextLibrary]

theorem eachMeets_congr {o : Option Schema} (items : Option (List Json))
    (h : ∀ s ∈ o.toList, ∀ v, s.meets links .value v = s.meets links' .value v) :
    eachMeets links o items = eachMeets links' o items := by
  cases o with
  | none => rfl
  | some s =>
      cases items with
      | none => rfl
      | some values => simp only [eachMeets, h s (by simp)]

theorem someMeets_congr {o : Option Schema} (items : Option (List Json))
    (h : ∀ s ∈ o.toList, ∀ v, s.meets links .value v = s.meets links' .value v) :
    someMeets links o items = someMeets links' o items := by
  cases o with
  | none => rfl
  | some s =>
      cases items with
      | none => rfl
      | some values => simp only [someMeets, h s (by simp)]

theorem propertiesMeet_congr {o : Option (List (String × Schema))}
    (hsame : ∀ p ∈ o.getD [], place.property? a p.1 = place.property? b p.1)
    (h : ∀ s ∈ Keywords.namedParts o, ∀ v,
      s.meets links .value v = s.meets links' .value v) :
    propertiesMeet links o place a = propertiesMeet links' o place b := by
  cases o with
  | none => rfl
  | some fields =>
      show fieldsMeet links fields place a = fieldsMeet links' fields place b
      induction fields with
      | nil => rfl
      | cons field rest ih =>
          obtain ⟨name, s⟩ := field
          rw [fieldsMeet, fieldsMeet, hsame _ List.mem_cons_self,
            ih (fun p hp => hsame p (List.mem_cons_of_mem _ hp))
              (fun s hs => h s (List.mem_cons_of_mem _ hs)),
            funext (h s List.mem_cons_self)]

theorem allMeet_congr {o : Option (List Schema)}
    (h : ∀ s ∈ o.getD [], s.meets links place a = s.meets links' place b) :
    allMeet links o place a = allMeet links' o place b := by
  cases o with
  | none => rfl
  | some branches =>
      rw [allMeet, allMeet, everyMeets_eq, everyMeets_eq]
      induction branches with
      | nil => rfl
      | cons s rest ih =>
          rw [List.all_cons, List.all_cons, h s List.mem_cons_self,
            ih fun s hs => h s (List.mem_cons_of_mem _ hs)]

theorem anyMeets_congr {o : Option (List Schema)}
    (h : ∀ s ∈ o.getD [], s.meets links place a = s.meets links' place b) :
    anyMeets links o place a = anyMeets links' o place b := by
  cases o with
  | none => rfl
  | some branches =>
      rw [anyMeets, anyMeets, oneMeets_eq, oneMeets_eq]
      induction branches with
      | nil => rfl
      | cons s rest ih =>
          rw [List.any_cons, List.any_cons, h s List.mem_cons_self,
            ih fun s hs => h s (List.mem_cons_of_mem _ hs)]

theorem notMeets_congr {o : Option Schema}
    (h : ∀ s ∈ o.toList, s.meets links place a = s.meets links' place b) :
    notMeets links o place a = notMeets links' o place b := by
  cases o with
  | none => rfl
  | some s => rw [notMeets, notMeets, h s (by simp)]

/-- Keywords that hold no schemas and compare no contract as a whole ask the
    same of all contracts, which have the same columns. -/
theorem plainMeets_contract {kw : Keywords Schema} (hconst : kw.const = none)
    (henum : kw.enum = none)
    (hsearch : kw.fullTextSearch.bind FullTextSearch.term? = none) (a b : Json) :
    kw.plainMeets .contract a = kw.plainMeets .contract b := by
  have hpresent (c : Json) (name : String) :
      (Place.contract.property? c name).isSome
        = decide (name ∈ ValuePath.columns) := by
    by_cases hcolumn : name ∈ ValuePath.columns <;>
      simp [Place.property?, hcolumn]
  have htype : Place.contract.hasType a = Place.contract.hasType b := rfl
  simp only [Keywords.plainMeets, htype, hconst, henum, hsearch, hpresent,
    Keywords.scalarMeets, Place.items?, Option.all_none]

/-! ## Schemas -/

/-- Links are asked of contracts only, so that a value meets a schema
    whatever is linked. -/
theorem meets_value (links links' : Json → String → List Json) (s : Schema) :
    ∀ v, s.meets links .value v = s.meets links' .value v := by
  induction s using Schema.induct with
  | bool b => intro v; rw [meets, meets]
  | node kw ih =>
      intro v
      simp only [Keywords.parts, List.mem_append, or_imp, forall_and] at ih
      obtain ⟨⟨⟨⟨⟨⟨⟨hproperties, hothers⟩, hallOf⟩, hanyOf⟩, hnot⟩, hitems⟩,
        hcontains⟩, -⟩ := ih
      have hlinks : linksMeet links kw.links .value v
          = linksMeet links' kw.links .value v := by
        cases kw.links <;> rfl
      rw [meets, meets, eachMeets_congr _ hitems, someMeets_congr _ hcontains,
        propertiesMeet_congr (fun _ _ => rfl) hproperties,
        eachMeets_congr _ hothers, allMeet_congr fun s hs => hallOf s hs v,
        anyMeets_congr fun s hs => hanyOf s hs v,
        notMeets_congr fun s hs => hnot s hs v, hlinks]

/-- Contracts that agree on the columns a schema reads meet it alike. -/
theorem Reads.meets_congr {s : Schema} (h : s.Reads columns)
    (hsame : AgreeOn columns a b) :
    s.meets links .contract a = s.meets links' .contract b := by
  induction h with
  | bool accepts => rw [meets, meets]
  | node kw const enum search hlinks properties allOf anyOf not hallOf hanyOf hnot =>
      have hplain := plainMeets_contract const enum search a b
      have hproperty : ∀ p ∈ kw.properties.getD [],
          Place.contract.property? a p.1 = Place.contract.property? b p.1 := by
        intro p hp
        by_cases hcolumn : p.1 ∈ ValuePath.columns
        · simp [Place.property?, hcolumn, hsame p.1 (properties p hp hcolumn)]
        · simp [Place.property?, hcolumn]
      rw [meets, meets, hplain, hlinks,
        propertiesMeet_congr hproperty fun s _ => meets_value links links' s,
        allMeet_congr hallOf, anyMeets_congr hanyOf, notMeets_congr hnot]
      simp [eachMeets, someMeets, Place.items?, Place.others?, linksMeet]

end Schema

end LinkedContracts
