import LinkedContracts.Proofs.Patch.Absent

/-! # Patches of a part of a document

    A document without some of its properties is patched as the whole document
    is: what the operations find in the part they find in the whole, and they
    leave the patched part of the patched whole.  A property that was left out
    may be added to the part, and then both have it. -/

namespace LinkedContracts

/-- A document without some of the properties that may be left out. -/
structure PartOf (hidden : String → Prop) (part whole : Dict Json) : Prop where
  part_sorted : part.Sorted
  whole_sorted : whole.Sorted
  agree : ∀ key, Dict.find? part key = Dict.find? whole key
    ∨ hidden key ∧ Dict.find? part key = none

namespace PartOf

variable {hidden : String → Prop} {part whole : Dict Json} {key : String} {v : Json}

/-- What is in the part is in the whole. -/
theorem find?_eq_some (h : PartOf hidden part whole)
    (hv : Dict.find? part key = some v) : Dict.find? whole key = some v := by
  rcases h.agree key with heq | ⟨-, hnone⟩
  · rw [← heq, hv]
  · rw [hnone] at hv
    cases hv

theorem insert (h : PartOf hidden part whole) (key : String) (v : Json) :
    PartOf hidden (Dict.insert part key v) (Dict.insert whole key v) where
  part_sorted := h.part_sorted.insert key v
  whole_sorted := h.whole_sorted.insert key v
  agree other := by
    by_cases heq : key = other
    · subst heq
      simp
    · rw [Dict.find?_insert_of_ne _ _ heq, Dict.find?_insert_of_ne _ _ heq]
      exact h.agree other

theorem erase (h : PartOf hidden part whole) (key : String) :
    PartOf hidden (Dict.erase part key) (Dict.erase whole key) where
  part_sorted := h.part_sorted.erase key
  whole_sorted := h.whole_sorted.erase key
  agree other := by
    by_cases heq : key = other
    · subst heq
      rw [h.part_sorted.find?_erase_self, h.whole_sorted.find?_erase_self]
      exact .inl rfl
    · rw [Dict.find?_erase_of_ne _ heq, Dict.find?_erase_of_ne _ heq]
      exact h.agree other

/-- Below the document, paths lead to the same. -/
theorem lookup?_eq_some (h : PartOf hidden part whole) {ts : List String}
    (hne : ts ≠ []) (hv : (Json.object part).lookup? ts = some v) :
    (Json.object whole).lookup? ts = some v := by
  cases ts with
  | nil => exact absurd rfl hne
  | cons t rest =>
      cases hchild : Dict.find? part t with
      | none =>
          rw [Json.lookup?_of_absent hchild] at hv
          cases hv
      | some child =>
          simpa [Json.lookup?, hchild, h.find?_eq_some hchild] using hv

theorem isSome_lookup? (h : PartOf hidden part whole) {ts : List String}
    (hfound : ((Json.object part).lookup? ts).isSome = true) :
    ((Json.object whole).lookup? ts).isSome = true := by
  cases ts with
  | nil => simp
  | cons t rest =>
      obtain ⟨v, hv⟩ := Option.isSome_iff_exists.mp hfound
      simp [h.lookup?_eq_some (List.cons_ne_nil t rest) hv]

theorem replace?_eq_some (h : PartOf hidden part whole) {ts : List String}
    {changed : Json} (hne : ts ≠ [])
    (hpart : (Json.object part).replace? ts v = some changed) :
    ∃ part' whole', changed = .object part'
      ∧ (Json.object whole).replace? ts v = some (.object whole')
      ∧ PartOf hidden part' whole' := by
  cases ts with
  | nil => exact absurd rfl hne
  | cons t rest =>
      cases hchild : Dict.find? part t with
      | none => simp [Json.replace?, hchild] at hpart
      | some child =>
          simp only [Json.replace?, hchild] at hpart
          obtain ⟨c, hc, rfl⟩ := Option.map_eq_some_iff.mp hpart
          exact ⟨_, Dict.insert whole t c, rfl,
            by simp [Json.replace?, h.find?_eq_some hchild, hc], h.insert t c⟩

end PartOf

namespace Patch

variable {hidden : String → Prop} {part whole : Dict Json} {changed : Json}
  {operations : List PatchOperation}

/-! ## Operations -/

/-- Whether what can be done to a part can be done to the whole, and leaves the
    part of it. -/
def Extends (hidden : String → Prop) (act : Json → Except PatchFault Json) : Prop :=
  ∀ part whole changed, PartOf hidden part whole →
    act (.object part) = .ok changed → ∃ part' whole', changed = .object part'
      ∧ act (.object whole) = .ok (.object whole') ∧ PartOf hidden part' whole'

theorem extends_addTo (value : Json) (token : String) :
    Extends hidden (addTo value token) := by
  intro part whole changed hpart h
  exact ⟨_, _, (Except.ok.inj h).symm, rfl, hpart.insert token value⟩

theorem extends_removeFrom (token : String) : Extends hidden (removeFrom token) := by
  intro part whole changed hpart h
  simp only [removeFrom] at h ⊢
  split at h
  next hcontains =>
    obtain ⟨v, hv⟩ := Option.isSome_iff_exists.mp hcontains
    have hwhole : Dict.contains whole token = true := by
      simp [Dict.contains, hpart.find?_eq_some hv]
    exact ⟨_, _, (Except.ok.inj h).symm, by rw [if_pos hwhole], hpart.erase token⟩
  · cases h

/-- A change inside a document is inside a property, unless it is of one. -/
theorem extends_changeParent {change : String → Json → Except PatchFault Json}
    (hchange : ∀ token, Extends hidden (change token)) {ts : List String}
    (hne : ts ≠ []) : Extends hidden (changeParent change · ts) := by
  intro part whole changed hpart h
  obtain ⟨above, token, rfl⟩ : ∃ above token, ts = above ++ [token] :=
    ⟨_, _, (List.dropLast_concat_getLast hne).symm⟩
  obtain ⟨parent, parent', hparent, hparent', hreplace⟩ := changeParent_ok_iff.mp h
  cases above with
  | nil =>
      obtain rfl := Option.some.inj ((Json.lookup?_nil _).symm.trans hparent)
      obtain rfl := Option.some.inj ((Json.replace?_nil _ _).symm.trans hreplace)
      obtain ⟨part', whole', rfl, hwhole, hpart'⟩ := hchange token _ _ _ hpart hparent'
      refine ⟨part', whole', rfl, changeParent_ok_iff.mpr ?_, hpart'⟩
      exact ⟨_, _, Json.lookup?_nil _, hwhole, Json.replace?_nil _ _⟩
  | cons t rest =>
      have hbelow := List.cons_ne_nil t rest
      obtain ⟨part', whole', rfl, hwhole, hpart'⟩ := hpart.replace?_eq_some hbelow hreplace
      refine ⟨part', whole', rfl, changeParent_ok_iff.mpr ?_, hpart'⟩
      exact ⟨parent, parent', hpart.lookup?_eq_some hbelow hparent, hparent', hwhole⟩

theorem extends_addAt (value : Json) {ts : List String} (hne : ts ≠ []) :
    Extends hidden (addAt · ts value) :=
  extends_changeParent (extends_addTo value) hne

theorem extends_removeAt {ts : List String} (hne : ts ≠ []) :
    Extends hidden (removeAt · ts) :=
  extends_changeParent extends_removeFrom hne

/-- An operation on the part, where what it needs is there, does the same to
    the whole. -/
theorem applyOperation_whole {op : PatchOperation} (hpart : PartOf hidden part whole)
    (hsource : ∀ path ts, op.source? = some path → Pointer.parse? path = some ts →
      ((Json.object part).lookup? ts).isSome = true)
    (h : applyOperation (.object part) op = .ok changed) :
    ∃ part' whole', changed = .object part'
      ∧ applyOperation (.object whole) op = .ok (.object whole')
      ∧ PartOf hidden part' whole' := by
  cases op with
  | add path value =>
      obtain ⟨ts, hts, h⟩ := except_bind_ok h
      obtain ⟨part', whole', rfl, hwhole, hpart'⟩ :=
        extends_addAt value (tokens_ok hts).2 _ _ _ hpart h
      exact ⟨part', whole', rfl, by rw [applyOperation, hts]; exact hwhole, hpart'⟩
  | remove path =>
      obtain ⟨ts, hts, h⟩ := except_bind_ok h
      obtain ⟨part', whole', rfl, hwhole, hpart'⟩ :=
        extends_removeAt (tokens_ok hts).2 _ _ _ hpart h
      exact ⟨part', whole', rfl, by rw [applyOperation, hts]; exact hwhole, hpart'⟩
  | replace path value =>
      obtain ⟨ts, hts, h⟩ := except_bind_ok h
      split at h
      next hreplace =>
        obtain rfl := Except.ok.inj h
        obtain ⟨part', whole', rfl, hwhole, hpart'⟩ :=
          hpart.replace?_eq_some (tokens_ok hts).2 hreplace
        refine ⟨part', whole', rfl, ?_, hpart'⟩
        simp [applyOperation, hts, hwhole, bind, Except.bind]
      · cases h
  | move source path =>
      simp only [applyOperation] at h ⊢
      split at h
      · cases h
      next hinto =>
        obtain ⟨ss, hss, h⟩ := except_bind_ok h
        obtain ⟨rest, hrest, h⟩ := except_bind_ok h
        obtain ⟨ts, hts, h⟩ := except_bind_ok h
        obtain ⟨hparse, hne⟩ := tokens_ok hss
        obtain ⟨v, hv⟩ := Option.isSome_iff_exists.mp (hsource source ss rfl hparse)
        obtain ⟨part', whole', rfl, hremove, hpart'⟩ :=
          extends_removeAt hne _ _ _ hpart hrest
        obtain ⟨part'', whole'', rfl, hadd, hpart''⟩ :=
          extends_addAt _ (tokens_ok hts).2 _ _ _ hpart' h
        refine ⟨part'', whole'', rfl, ?_, hpart''⟩
        rw [hv] at hadd
        simpa [hinto, hss, hremove, hts, hpart.lookup?_eq_some hne hv, bind,
          Except.bind] using hadd
  | copy source path =>
      obtain ⟨ss, hss, h⟩ := except_bind_ok h
      split at h
      next v hv =>
        obtain ⟨ts, hts, h⟩ := except_bind_ok h
        obtain ⟨part', whole', rfl, hwhole, hpart'⟩ :=
          extends_addAt v (tokens_ok hts).2 _ _ _ hpart h
        refine ⟨part', whole', rfl, ?_, hpart'⟩
        simpa [applyOperation, hss, hts, hpart.lookup?_eq_some (tokens_ok hss).2 hv,
          bind, Except.bind] using hwhole
      · cases h
  | test path value =>
      obtain ⟨ts, hts, h⟩ := except_bind_ok h
      split at h
      next actual hactual =>
        split at h
        next hequal =>
          refine ⟨part, whole, (Except.ok.inj h).symm, ?_, hpart⟩
          simp [applyOperation, hts, hpart.lookup?_eq_some (tokens_ok hts).2 hactual,
            hequal, bind, Except.bind]
        · cases h
      · cases h

/-! ## Patches -/

/-- A step on the part does the same to the whole. -/
theorem step_whole {slug : String} (slug' : String) {op : PatchOperation}
    (hpart : PartOf hidden part whole) (h : step slug (.object part) op = .ok changed) :
    ∃ part' whole', changed = .object part'
      ∧ step slug' (.object whole) op = .ok (.object whole')
      ∧ PartOf hidden part' whole' := by
  rcases edits_of_step h with ⟨hskip, rfl⟩ | ⟨hskip, hcheck, happly⟩
  · exact ⟨part, whole, rfl, by rw [step, if_pos hskip], hpart⟩
  have hsource (path : String) (ts : List String) (hpath : op.source? = some path)
      (hparse : Pointer.parse? path = some ts) :
      ((Json.object part).lookup? ts).isSome = true := by
    obtain ⟨ts', hts', hfound⟩ := lookup?_of_checkSource hcheck hpath
    obtain rfl := Option.some.inj (hparse.symm.trans hts')
    exact hfound
  obtain ⟨part', whole', rfl, hwhole, hpart'⟩ :=
    applyOperation_whole hpart hsource happly
  have hcheck' : checkSource slug' (.object whole) op = .ok () := by
    cases hpath : op.source? with
    | none => simp [checkSource, hpath]
    | some path =>
        obtain ⟨ts, hts, hfound⟩ := lookup?_of_checkSource hcheck hpath
        simp [checkSource, hpath, hts, hpart.isSome_lookup? hfound]
  refine ⟨part', whole', rfl, ?_, hpart'⟩
  simp [step, hskip, hcheck', hwhole, bind, Except.bind]

/-- A patch that applies to the part applies to the whole, and leaves the part
    of it. -/
theorem steps_whole {slug : String} (slug' : String) (hpart : PartOf hidden part whole)
    (h : steps slug (.object part) operations = .ok changed) :
    ∃ part' whole', changed = .object part'
      ∧ steps slug' (.object whole) operations = .ok (.object whole')
      ∧ PartOf hidden part' whole' := by
  induction operations generalizing part whole with
  | nil => exact ⟨part, whole, (Except.ok.inj h).symm, rfl, hpart⟩
  | cons op rest ih =>
      obtain ⟨next, hstep, hrest⟩ := steps_cons h
      obtain ⟨part', whole', rfl, hwhole, hpart'⟩ := step_whole slug' hpart hstep
      obtain ⟨part'', whole'', rfl, hrest', hpart''⟩ := ih hpart' hrest
      refine ⟨part'', whole'', rfl, ?_, hpart''⟩
      rw [steps, List.foldlM_cons, hwhole]
      exact hrest'

theorem apply_whole (hpart : PartOf hidden part whole)
    (h : apply (.object part) operations = .ok changed) :
    ∃ part' whole', changed = .object part'
      ∧ apply (.object whole) operations = .ok (.object whole')
      ∧ PartOf hidden part' whole' :=
  steps_whole _ hpart h

end Patch

end LinkedContracts
