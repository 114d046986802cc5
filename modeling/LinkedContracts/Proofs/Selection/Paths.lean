import LinkedContracts.Proofs.Dict
import LinkedContracts.Selection
import Mathlib.Data.Set.Basic

/-! # Selections as sets of paths

    A path goes from a contract to its properties and along its links.  A
    selection is read as the set of its paths, which has with a path all that
    leads there.  Nothing is lost by that: a selection whose dictionaries are
    in order is known by its paths.  Merging is union, and rectifying is
    intersection. -/

namespace LinkedContracts

/-- A step from a contract, or from a value inside it. -/
inductive Step where
  | property (name : String)
  | link (linkType : String)
deriving DecidableEq

/-- Whether a step stays inside the contract. -/
def Step.isProperty : Step → Bool
  | property _ => true
  | link _ => false

namespace Selection

/-- What is selected one step on. -/
def after? (s : Selection) : Step → Option Selection
  | .property name => Dict.find? s.properties name
  | .link linkType => Dict.find? s.links linkType

/-- Whether a path is selected. -/
def Has : Selection → List Step → Prop
  | _, [] => True
  | s, step :: rest => ∃ sub, s.after? step = some sub ∧ sub.Has rest

/-- The paths of a selection. -/
def paths (s : Selection) : Set (List Step) := {path | s.Has path}

/-- The dictionaries of a selection are in order, at every depth. -/
inductive WellFormed : Selection → Prop where
  | mk {properties links : Dict Selection} (hproperties : Dict.Sorted properties)
      (hlinks : Dict.Sorted links) (h : ∀ p ∈ properties ++ links, p.2.WellFormed) :
      WellFormed ⟨properties, links⟩

variable {s t : Selection} {path rest : List Step} {step : Step} {key : String}

/-! ## Paths -/

@[simp] theorem has_nil (s : Selection) : s.Has [] := trivial

theorem has_cons :
    s.Has (step :: rest) ↔ ∃ sub, s.after? step = some sub ∧ sub.Has rest :=
  Iff.rfl

theorem not_has_empty_cons : ¬empty.Has (step :: rest) := by
  rintro ⟨sub, hsub, -⟩
  cases step <;> cases hsub

/-- What leads to a selected path is selected. -/
theorem Has.of_append {more : List Step} (h : s.Has (path ++ more)) : s.Has path := by
  induction path generalizing s with
  | nil => exact has_nil s
  | cons step rest ih =>
      obtain ⟨sub, hsub, hrest⟩ := h
      exact ⟨sub, hsub, ih hrest⟩

theorem wellFormed_empty : empty.WellFormed :=
  .mk Dict.sorted_nil Dict.sorted_nil (List.forall_mem_nil _)

/-- Dictionaries of selections are the same if the same paths start in them. -/
theorem eq_of_same_paths {d e : Dict Selection} (hd : Dict.Sorted d) (he : Dict.Sorted e)
    (heq : ∀ p ∈ d, ∀ q ∈ e, p.2.paths = q.2.paths → p.2 = q.2)
    (h : ∀ key rest, (∃ sub, Dict.find? d key = some sub ∧ sub.Has rest)
      ↔ ∃ sub, Dict.find? e key = some sub ∧ sub.Has rest) : d = e := by
  refine hd.eq_of_find? he fun key => ?_
  cases hfind : Dict.find? d key with
  | none =>
      refine (Option.eq_none_iff_forall_ne_some.mpr fun sub hsub => ?_).symm
      obtain ⟨sub', hsub', -⟩ := (h key []).mpr ⟨sub, hsub, has_nil sub⟩
      rw [hfind] at hsub'
      cases hsub'
  | some sub =>
      obtain ⟨sub', hsub', -⟩ := (h key []).mp ⟨sub, hfind, has_nil sub⟩
      have hpaths : sub.paths = sub'.paths := by
        ext rest
        simpa [paths, hfind, hsub'] using h key rest
      rw [hsub']
      exact congrArg some
        (heq _ (Dict.mem_of_find? hfind) _ (Dict.mem_of_find? hsub') hpaths)

/-- A selection is known by its paths. -/
theorem WellFormed.eq_of_paths (hs : s.WellFormed) (ht : t.WellFormed)
    (h : s.paths = t.paths) : s = t := by
  induction hs generalizing t with
  | @mk properties links hproperties hlinks _ ih =>
      obtain @⟨others, more, hothers, hmore, hbelow⟩ := ht
      have hstep (step : Step) (rest : List Step) :
          Has ⟨properties, links⟩ (step :: rest) ↔ Has ⟨others, more⟩ (step :: rest) :=
        Set.ext_iff.mp h (step :: rest)
      have hsame : properties = others :=
        eq_of_same_paths hproperties hothers
          (fun p hp q hq => ih p (List.mem_append_left _ hp)
            (hbelow q (List.mem_append_left _ hq)))
          fun key => hstep (.property key)
      have hlinked : links = more :=
        eq_of_same_paths hlinks hmore
          (fun p hp q hq => ih p (List.mem_append_right _ hp)
            (hbelow q (List.mem_append_right _ hq)))
          fun key => hstep (.link key)
      rw [hsame, hlinked]

/-! ## Union -/

/-- A path of merged dictionaries is one of the first, or of a selection that
    was merged into it. -/
theorem has_mergeAll {named : List (String × Selection)}
    (hmerge : ∀ p ∈ named, ∀ (base : Selection) (rest : List Step),
      (base.merge p.2).Has rest ↔ base.Has rest ∨ p.2.Has rest)
    (base : Dict Selection) :
    (∃ sub, Dict.find? (mergeAll base named) key = some sub ∧ sub.Has rest)
      ↔ (∃ sub, Dict.find? base key = some sub ∧ sub.Has rest)
        ∨ ∃ sub, (key, sub) ∈ named ∧ sub.Has rest := by
  induction named generalizing base with
  | nil => simp [mergeAll]
  | cons p named ih =>
      obtain ⟨name, s⟩ := p
      obtain ⟨hfirst, hothers⟩ := List.forall_mem_cons.mp hmerge
      rw [mergeAll, ih hothers]
      by_cases hname : name = key
      · subst hname
        have hold : ((Dict.find? base name).getD empty).Has rest ∨ s.Has rest
            ↔ (∃ sub, Dict.find? base name = some sub ∧ sub.Has rest) ∨ s.Has rest := by
          cases Dict.find? base name with
          | some old => simp
          | none =>
              cases rest with
              | nil => simp
              | cons step rest => simp [not_has_empty_cons]
        simp [hfirst, hold, or_assoc]
      · simp [Dict.find?_insert_of_ne base _ hname, Ne.symm hname]

/-- A selection is merged into another one path by path. -/
theorem WellFormed.has_merge (ht : t.WellFormed) (s : Selection) (path : List Step) :
    (s.merge t).Has path ↔ s.Has path ∨ t.Has path := by
  induction ht generalizing s path with
  | @mk properties links hproperties hlinks _ ih =>
      cases path with
      | nil => simp
      | cons step rest =>
          rw [merge]
          cases step with
          | property name =>
              have h : (∃ sub, Dict.find? (mergeAll s.properties properties) name
                  = some sub ∧ sub.Has rest) ↔ _ :=
                has_mergeAll (fun p hp => ih p (List.mem_append_left _ hp)) s.properties
              simpa [has_cons, after?, hproperties.find?_eq_some] using h
          | link linkType =>
              have h : (∃ sub, Dict.find? (mergeAll s.links links) linkType
                  = some sub ∧ sub.Has rest) ↔ _ :=
                has_mergeAll (fun p hp => ih p (List.mem_append_right _ hp)) s.links
              simpa [has_cons, after?, hlinks.find?_eq_some] using h

/-- Merging is union. -/
theorem WellFormed.paths_merge (ht : t.WellFormed) (s : Selection) :
    (s.merge t).paths = s.paths ∪ t.paths :=
  Set.ext (ht.has_merge s)

/-! ## Intersection -/

theorem find?_rectifyAll (named : List (String × Selection)) (allowed : Dict Selection)
    (key : String) :
    Dict.find? (rectifyAll named allowed) key
      = (Dict.find? named key).bind fun s => (Dict.find? allowed key).map s.rectify := by
  induction named with
  | nil => rfl
  | cons p named ih =>
      obtain ⟨name, s⟩ := p
      rw [rectifyAll, Dict.find?_cons]
      by_cases hname : name = key
      · subst hname
        cases hallowed : Dict.find? allowed name with
        | none => simp [ih, hallowed]
        | some a => simp [Dict.find?_cons]
      · cases Dict.find? allowed name with
        | none => simp [ih, hname]
        | some a => simp [Dict.find?_cons, hname, ih]

theorem after?_rectify (s t : Selection) (step : Step) :
    (s.rectify t).after? step
      = (s.after? step).bind fun sub => (t.after? step).map sub.rectify := by
  cases s
  cases step <;> exact find?_rectifyAll _ _ _

theorem has_rectify (s t : Selection) (path : List Step) :
    (s.rectify t).Has path ↔ s.Has path ∧ t.Has path := by
  induction path generalizing s t with
  | nil => simp
  | cons step rest ih =>
      simp only [has_cons, after?_rectify]
      cases s.after? step <;> cases t.after? step <;> simp [ih]

/-- Rectifying is intersection. -/
theorem paths_rectify (s t : Selection) : (s.rectify t).paths = s.paths ∩ t.paths :=
  Set.ext (has_rectify s t)

/-! ## Well-formed results -/

theorem wellFormed_mergeAll {named : List (String × Selection)}
    (hmerge : ∀ p ∈ named, ∀ base : Selection, base.WellFormed →
      (base.merge p.2).WellFormed)
    {base : Dict Selection} (hbase : Dict.Sorted base) (h : ∀ p ∈ base, p.2.WellFormed) :
    Dict.Sorted (mergeAll base named) ∧ ∀ p ∈ mergeAll base named, p.2.WellFormed := by
  induction named generalizing base with
  | nil => exact ⟨hbase, h⟩
  | cons p named ih =>
      obtain ⟨name, s⟩ := p
      obtain ⟨hfirst, hothers⟩ := List.forall_mem_cons.mp hmerge
      have hold : ((Dict.find? base name).getD empty).WellFormed := by
        cases hfind : Dict.find? base name with
        | none => exact wellFormed_empty
        | some old => exact h _ (Dict.mem_of_find? hfind)
      refine ih hothers (hbase.insert _ _) fun p hp => ?_
      rcases Dict.mem_of_mem_insert hp with rfl | hp
      · exact hfirst _ hold
      · exact h p hp

theorem WellFormed.merge (ht : t.WellFormed) (hs : s.WellFormed) :
    (s.merge t).WellFormed := by
  induction ht generalizing s with
  | mk _ _ _ ih =>
      obtain ⟨hproperties, hlinks, h⟩ := hs
      obtain ⟨hsorted, hall⟩ := wellFormed_mergeAll
        (fun p hp base => ih p (List.mem_append_left _ hp)) hproperties
        fun p hp => h p (List.mem_append_left _ hp)
      obtain ⟨hlinked, hbelow⟩ := wellFormed_mergeAll
        (fun p hp base => ih p (List.mem_append_right _ hp)) hlinks
        fun p hp => h p (List.mem_append_right _ hp)
      rw [Selection.merge]
      exact .mk hsorted hlinked (List.forall_mem_append.mpr ⟨hall, hbelow⟩)

end Selection

end LinkedContracts
