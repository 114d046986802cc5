import LinkedContracts.Proofs.Patch.Frame

/-! # Patches of what is not there

    Of a property that a document lacks only an addition can be said: any
    other operation on it fails.  A patch after which the document lacks the
    property again has taken away what it added. -/

namespace LinkedContracts

namespace PatchOperation

/-- Whether an operation puts a value at a property. -/
def Adds (op : PatchOperation) (key : String) : Prop :=
  match op with
  | add p _ | move _ p | copy _ p => Pointer.parse? p = some [key]
  | _ => False

/-- Whether an operation takes a property away. -/
def Takes (op : PatchOperation) (key : String) : Prop :=
  match op with
  | remove p | move p _ => Pointer.parse? p = some [key]
  | _ => False

end PatchOperation

namespace Json

/-- A path that meets a property starts with its key. -/
theorem eq_cons_of_meets {ts : List String} {key : String} (hne : ts ≠ [])
    (h : Meets ts [key]) : ∃ rest, ts = key :: rest := by
  cases ts with
  | nil => exact absurd rfl hne
  | cons t rest =>
      rcases h with h | h
      · exact ⟨rest, by rw [(List.cons_prefix_cons.mp h).1]⟩
      · exact ⟨rest, by rw [(List.cons_prefix_cons.mp h).1]⟩

theorem lookup?_of_absent {fields : Dict Json} {key : String}
    (h : Dict.find? fields key = none) (rest : List String) :
    (Json.object fields).lookup? (key :: rest) = none := by
  simp [lookup?, h]

/-- An edit somewhere else keeps a property that is there. -/
theorem Edit.isSome_field? {ts : List String} {doc changed : Json} {key : String}
    (h : Edit ts doc changed) (hts : ts ≠ [key])
    (hkey : (doc.field? key).isSome = true) :
    (changed.field? key).isSome = true := by
  cases h with
  | @field token fields changed h =>
      have hne : key ≠ token := by
        rintro rfl
        exact hts rfl
      show (Dict.find? changed key).isSome = true
      rw [h key hne]
      exact hkey
  | @inField token rest fields child changed hchild h =>
      show (Dict.find? (Dict.insert fields token changed) key).isSome = true
      by_cases heq : token = key
      · subst heq
        simp
      · rw [Dict.find?_insert_of_ne _ _ heq]
        exact hkey
  | items => cases hkey

end Json

namespace Patch

open Json

/-- What an operation needs is there. -/
theorem lookup?_of_checkSource {slug path : String} {doc : Json}
    {op : PatchOperation} (h : checkSource slug doc op = .ok ())
    (hsource : op.source? = some path) :
    ∃ ts, Pointer.parse? path = some ts ∧ (doc.lookup? ts).isSome = true := by
  simp only [checkSource, hsource] at h
  split at h
  · cases h
  · next ts hts =>
      split at h
      · next hfound => exact ⟨ts, hts, hfound⟩
      · cases h

theorem addAt_property {fields : Dict Json} {key : String} {value changed : Json}
    (h : addAt (.object fields) [key] value = .ok changed) :
    changed = .object (Dict.insert fields key value) :=
  (Except.ok.inj h).symm

/-- Nothing is added inside a property that is not there. -/
theorem rest_eq_nil_of_addAt {fields : Dict Json} {key : String}
    {rest : List String} {value changed : Json}
    (habsent : Dict.find? fields key = none)
    (h : addAt (.object fields) (key :: rest) value = .ok changed) :
    rest = [] := by
  cases rest with
  | nil => rfl
  | cons next rest =>
      simp only [addAt, changeParent] at h
      split at h
      · next hparent =>
          rw [List.dropLast_cons_cons, lookup?_of_absent habsent] at hparent
          cases hparent
      · cases h

/-- What is added at a property that is not there is the property itself. -/
theorem added {fields : Dict Json} {key : String} {ts : List String}
    {value changed : Json} (hne : ts ≠ [])
    (habsent : Dict.find? fields key = none) (hmeets : Meets ts [key])
    (h : addAt (.object fields) ts value = .ok changed) :
    ts = [key] ∧ (changed.field? key).isSome = true := by
  obtain ⟨rest, rfl⟩ := eq_cons_of_meets hne hmeets
  obtain rfl := rest_eq_nil_of_addAt habsent h
  rw [addAt_property h]
  exact ⟨rfl, by simp [field?]⟩

theorem isSome_field?_addAt {doc changed value : Json} {ts : List String}
    {key : String} (h : addAt doc ts value = .ok changed)
    (hkey : (doc.field? key).isSome = true) :
    (changed.field? key).isSome = true := by
  by_cases hts : ts = [key]
  · subst hts
    cases doc with
    | object fields =>
        rw [addAt_property h]
        simp [field?]
    | _ => cases hkey
  · exact (edit_of_changeParent edit_of_addTo h).isSome_field? hts hkey

theorem isSome_field?_replace? {doc changed value : Json} {ts : List String}
    {key : String} (hne : ts ≠ []) (h : doc.replace? ts value = some changed)
    (hkey : (doc.field? key).isSome = true) :
    (changed.field? key).isSome = true := by
  by_cases hts : ts = [key]
  · subst hts
    cases doc with
    | object fields =>
        obtain ⟨old, hold⟩ := Option.isSome_iff_exists.mp hkey
        have hold : Dict.find? fields key = some old := hold
        simp only [replace?, hold, Option.map_some] at h
        obtain rfl := Option.some.inj h
        simp [field?]
    | _ => cases hkey
  · exact (edit_of_replace? hne h).isSome_field? hts hkey

/-! ## Steps -/

section

variable {slug key : String} {fields : Dict Json} {changed : Json}
  {op : PatchOperation}

/-- A step that touches a property that is not there adds it. -/
theorem adds_of_touches (h : step slug (.object fields) op = .ok changed)
    (habsent : Dict.find? fields key = none) (htouches : op.Touches [key]) :
    op.Adds key ∧ (changed.field? key).isSome = true := by
  obtain ⟨hskip, path, hpath, ts, hparse, hne, hmeets⟩ := htouches
  rcases edits_of_step h with ⟨hskip', -⟩ | ⟨-, hcheck, happly⟩
  · rw [hskip] at hskip'
    cases hskip'
  -- what an operation needs is there, and so it is not at the property
  have elsewhere {source : String} {ss : List String}
      (hsource : op.source? = some source)
      (hss : Pointer.parse? source = some ss) (hne : ss ≠ []) :
      ¬Meets ss [key] := by
    intro hmeets
    obtain ⟨rest, rfl⟩ := eq_cons_of_meets hne hmeets
    obtain ⟨ss', hss', hfound⟩ := lookup?_of_checkSource hcheck hsource
    obtain rfl := Option.some.inj (hss.symm.trans hss')
    rw [lookup?_of_absent habsent] at hfound
    cases hfound
  cases op with
  | add target value =>
      obtain rfl := List.mem_singleton.mp hpath
      obtain ⟨ts', hts, happly⟩ := except_bind_ok happly
      obtain rfl := Option.some.inj ((tokens_ok hts).1.symm.trans hparse)
      obtain ⟨rfl, hthere⟩ := added hne habsent hmeets happly
      exact ⟨hparse, hthere⟩
  | remove target =>
      obtain rfl := List.mem_singleton.mp hpath
      obtain ⟨ts', hts, -⟩ := except_bind_ok happly
      obtain rfl := Option.some.inj ((tokens_ok hts).1.symm.trans hparse)
      exact absurd hmeets (elsewhere rfl hparse hne)
  | replace target value =>
      obtain rfl := List.mem_singleton.mp hpath
      obtain ⟨ts', hts, -⟩ := except_bind_ok happly
      obtain rfl := Option.some.inj ((tokens_ok hts).1.symm.trans hparse)
      exact absurd hmeets (elsewhere rfl hparse hne)
  | move source target =>
      simp only [applyOperation] at happly
      split at happly
      · cases happly
      obtain ⟨ss, hss, happly⟩ := except_bind_ok happly
      obtain ⟨rest, hrest, happly⟩ := except_bind_ok happly
      obtain ⟨ts', hts, hadd⟩ := except_bind_ok happly
      have hsource := elsewhere rfl (tokens_ok hss).1 (tokens_ok hss).2
      have hedit : Edit ss (.object fields) rest :=
        edit_of_changeParent edit_of_removeFrom hrest
      obtain ⟨fields', rfl⟩ := hedit.object
      have habsent' : Dict.find? fields' key = none := by
        rw [← part?_singleton, hedit.part?_eq hsource, part?_singleton, habsent]
      rcases List.mem_cons.mp hpath with rfl | hpath
      · obtain rfl := Option.some.inj ((tokens_ok hss).1.symm.trans hparse)
        exact absurd hmeets hsource
      · obtain rfl := List.mem_singleton.mp hpath
        obtain rfl := Option.some.inj ((tokens_ok hts).1.symm.trans hparse)
        obtain ⟨rfl, hthere⟩ := added hne habsent' hmeets hadd
        exact ⟨hparse, hthere⟩
  | copy source target =>
      obtain rfl := List.mem_singleton.mp hpath
      obtain ⟨ss, hss, happly⟩ := except_bind_ok happly
      split at happly
      · obtain ⟨ts', hts, happly⟩ := except_bind_ok happly
        obtain rfl := Option.some.inj ((tokens_ok hts).1.symm.trans hparse)
        obtain ⟨rfl, hthere⟩ := added hne habsent hmeets happly
        exact ⟨hparse, hthere⟩
      · cases happly
  | test target value => exact absurd hpath List.not_mem_nil

/-- A property that is there stays there unless a step takes it away. -/
theorem isSome_field?_step {doc : Json} (h : step slug doc op = .ok changed)
    (htakes : ¬op.Takes key) (hkey : (doc.field? key).isSome = true) :
    (changed.field? key).isSome = true := by
  rcases edits_of_step h with ⟨-, rfl⟩ | ⟨-, -, h⟩
  · exact hkey
  cases op with
  | add path value =>
      obtain ⟨ts, hts, h⟩ := except_bind_ok h
      exact isSome_field?_addAt h hkey
  | remove path =>
      obtain ⟨ts, hts, h⟩ := except_bind_ok h
      refine (edit_of_changeParent edit_of_removeFrom h).isSome_field? ?_ hkey
      rintro rfl
      exact htakes (tokens_ok hts).1
  | replace path value =>
      obtain ⟨ts, hts, h⟩ := except_bind_ok h
      split at h
      · next hreplace =>
          obtain rfl := Except.ok.inj h
          exact isSome_field?_replace? (tokens_ok hts).2 hreplace hkey
      · cases h
  | move source path =>
      simp only [applyOperation] at h
      split at h
      · cases h
      · obtain ⟨ss, hss, h⟩ := except_bind_ok h
        obtain ⟨rest, hrest, h⟩ := except_bind_ok h
        obtain ⟨ts, hts, h⟩ := except_bind_ok h
        refine isSome_field?_addAt h <|
          (edit_of_changeParent edit_of_removeFrom hrest).isSome_field? ?_ hkey
        rintro rfl
        exact htakes (tokens_ok hss).1
  | copy source path =>
      obtain ⟨ss, hss, h⟩ := except_bind_ok h
      split at h
      · obtain ⟨ts, hts, h⟩ := except_bind_ok h
        exact isSome_field?_addAt h hkey
      · cases h
  | test path value =>
      obtain ⟨ts, hts, h⟩ := except_bind_ok h
      split at h
      · split at h
        · obtain rfl := Except.ok.inj h
          exact hkey
        · cases h
      · cases h

end

/-! ## Whole patches -/

/-- A patch that takes away a property that was there has an operation that
    takes it. -/
theorem exists_takes {slug key : String} {doc changed : Json}
    {operations : List PatchOperation}
    (h : steps slug doc operations = .ok changed)
    (hkey : (doc.field? key).isSome = true) (habsent : changed.field? key = none) :
    ∃ op ∈ operations, op.Takes key := by
  induction operations generalizing doc with
  | nil =>
      obtain rfl := Except.ok.inj h
      rw [habsent] at hkey
      cases hkey
  | cons op rest ih =>
      obtain ⟨next, hstep, hrest⟩ := steps_cons h
      by_cases htakes : op.Takes key
      · exact ⟨op, List.mem_cons_self, htakes⟩
      · obtain ⟨later, hlater, htakes⟩ :=
          ih hrest (isSome_field?_step hstep htakes hkey)
        exact ⟨later, List.mem_cons_of_mem _ hlater, htakes⟩

/-- A patch before and after which a document lacks a property does not touch
    it, or adds it and later takes it away. -/
theorem adds_then_takes {slug key : String} {fields : Dict Json} {changed : Json}
    {operations : List PatchOperation}
    (h : steps slug (.object fields) operations = .ok changed)
    (hbefore : Dict.find? fields key = none) (hafter : changed.field? key = none) :
    (∀ op ∈ operations, ¬op.Touches [key])
      ∨ ∃ a b, [a, b].Sublist operations ∧ a.Adds key ∧ b.Takes key := by
  induction operations generalizing fields with
  | nil => exact .inl fun _ hop => absurd hop List.not_mem_nil
  | cons op rest ih =>
      obtain ⟨next, hstep, hrest⟩ := steps_cons h
      by_cases htouches : op.Touches [key]
      · obtain ⟨hadds, hthere⟩ := adds_of_touches hstep hbefore htouches
        obtain ⟨later, hlater, htakes⟩ := exists_takes hrest hthere hafter
        exact .inr ⟨op, later, (List.singleton_sublist.mpr hlater).cons_cons op,
          hadds, htakes⟩
      · obtain ⟨fields', rfl⟩ := object_step hstep
        have hbefore' : Dict.find? fields' key = none := by
          rw [← part?_singleton, part?_step hstep htouches, part?_singleton,
            hbefore]
        rcases ih hrest hbefore' with hnone | ⟨a, b, hsub, hadds, htakes⟩
        · refine .inl fun other hother => ?_
          rcases List.mem_cons.mp hother with rfl | hother
          · exact htouches
          · exact hnone other hother
        · exact .inr ⟨a, b, hsub.cons op, hadds, htakes⟩

end Patch

end LinkedContracts
