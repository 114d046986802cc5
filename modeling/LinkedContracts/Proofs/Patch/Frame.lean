import LinkedContracts.Patch
import LinkedContracts.Proofs.Pointer
import LinkedContracts.Proofs.Stateful

/-! # What a patch leaves alone

    An operation of a patch edits the document at the paths it writes to.  A
    part that keys lead to stays as it is unless an edit is at it, above it
    or inside it. -/

namespace LinkedContracts

namespace Json

/-- The part of a document that keys lead to, through objects only. -/
def part? : Json → List String → Option Json
  | doc, [] => some doc
  | .object fields, key :: rest =>
      match Dict.find? fields key with
      | some child => part? child rest
      | none => none
  | _, _ :: _ => none

@[simp] theorem part?_nil (doc : Json) : doc.part? [] = some doc := by
  cases doc <;> rfl

theorem part?_cons (fields : Dict Json) (key : String) (rest : List String) :
    (Json.object fields).part? (key :: rest)
      = (Dict.find? fields key).bind (part? · rest) := by
  rw [part?]
  cases Dict.find? fields key <;> rfl

theorem part?_singleton (fields : Dict Json) (key : String) :
    (Json.object fields).part? [key] = Dict.find? fields key := by
  rw [part?_cons]
  cases Dict.find? fields key <;> simp

/-- Whether one path leads into or to the other. -/
def Meets (p q : List String) : Prop := p <+: q ∨ q <+: p

theorem meets_cons {key : String} {p q : List String} :
    Meets (key :: p) (key :: q) ↔ Meets p q := by
  simp [Meets, List.cons_prefix_cons]

/-- An edit of a document at a path: of a field or an item at its end, and
    of nothing beside it. -/
inductive Edit : List String → Json → Json → Prop
  | field {token : String} {fields changed : Dict Json}
      (h : ∀ key, key ≠ token → Dict.find? changed key = Dict.find? fields key) :
      Edit [token] (.object fields) (.object changed)
  | inField {token : String} {rest : List String} {fields : Dict Json}
      {child changed : Json} (hchild : Dict.find? fields token = some child)
      (h : Edit rest child changed) :
      Edit (token :: rest) (.object fields)
        (.object (Dict.insert fields token changed))
  | items {token : String} {rest : List String} {items changed : List Json} :
      Edit (token :: rest) (.array items) (.array changed)

namespace Edit

variable {path : List String} {doc changed : Json}

/-- An edit leaves what its path does not meet. -/
theorem part?_eq (h : Edit path doc changed) {p : List String}
    (hp : ¬Meets path p) : changed.part? p = doc.part? p := by
  induction h generalizing p with
  | @field token fields changed h =>
      cases p with
      | nil => exact absurd (.inr List.nil_prefix) hp
      | cons key rest =>
          have hkey : key ≠ token := by
            rintro rfl
            exact hp (meets_cons.mpr (.inl List.nil_prefix))
          rw [part?_cons, part?_cons, h key hkey]
  | @inField token path fields child changed hchild _ ih =>
      cases p with
      | nil => exact absurd (.inr List.nil_prefix) hp
      | cons key rest =>
          rw [part?_cons, part?_cons]
          by_cases hkey : key = token
          · subst hkey
            rw [Dict.find?_insert_self, hchild]
            exact ih fun hmeets => hp (meets_cons.mpr hmeets)
          · rw [Dict.find?_insert_of_ne _ _ (Ne.symm hkey)]
  | items =>
      cases p with
      | nil => exact absurd (.inr List.nil_prefix) hp
      | cons key rest => rfl

theorem ne_nil (h : Edit path doc changed) : path ≠ [] := by
  cases h <;> exact List.cons_ne_nil _ _

/-- An edit of an object makes an object. -/
theorem object {fields : Dict Json} (h : Edit path (.object fields) changed) :
    ∃ fields', changed = .object fields' := by
  cases h with
  | field => exact ⟨_, rfl⟩
  | inField => exact ⟨_, rfl⟩

end Edit

/-- Edits one after the other, at paths. -/
inductive Edits : List (List String) → Json → Json → Prop
  | nil (doc : Json) : Edits [] doc doc
  | cons {path : List String} {paths : List (List String)} {a b c : Json}
      (h : Edit path a b) (rest : Edits paths b c) : Edits (path :: paths) a c

namespace Edits

variable {paths : List (List String)} {doc changed : Json}

theorem part?_eq (h : Edits paths doc changed) {p : List String}
    (hp : ∀ path ∈ paths, path ≠ [] → ¬Meets path p) :
    changed.part? p = doc.part? p := by
  induction h with
  | nil => rfl
  | cons h _ ih =>
      rw [ih fun path hpath => hp path (List.mem_cons_of_mem _ hpath),
        h.part?_eq (hp _ List.mem_cons_self h.ne_nil)]

theorem object {fields : Dict Json} (h : Edits paths (.object fields) changed) :
    ∃ fields', changed = .object fields' := by
  generalize hdoc : Json.object fields = doc at h
  induction h generalizing fields with
  | nil => exact ⟨fields, hdoc.symm⟩
  | cons h _ ih =>
      subst hdoc
      obtain ⟨fields', rfl⟩ := h.object
      exact ih rfl

end Edits

/-! ## Edits of the primitives -/

/-- Putting back a container in which one token was edited edits the document
    at the path of the token. -/
theorem edit_inside {doc changed parent parent' : Json} {ts : List String}
    {token : String} (hlookup : doc.lookup? ts = some parent)
    (h : Edit [token] parent parent')
    (hreplace : doc.replace? ts parent' = some changed) :
    Edit (ts ++ [token]) doc changed := by
  induction ts generalizing doc changed with
  | nil =>
      obtain rfl := Option.some.inj ((lookup?_nil doc).symm.trans hlookup)
      obtain rfl := Option.some.inj ((replace?_nil doc parent').symm.trans hreplace)
      exact h
  | cons t ts ih =>
      cases doc with
      | object fields =>
          simp only [lookup?, replace?] at hlookup hreplace
          cases hchild : Dict.find? fields t with
          | none => rw [hchild] at hlookup; cases hlookup
          | some child =>
              rw [hchild] at hlookup hreplace
              obtain ⟨c, hc, rfl⟩ := Option.map_eq_some_iff.mp hreplace
              exact .inField hchild (ih hlookup hc)
      | array items =>
          simp only [replace?] at hreplace
          split at hreplace
          · split at hreplace
            · obtain ⟨c, -, rfl⟩ := Option.map_eq_some_iff.mp hreplace
              exact .items
            · cases hreplace
          · cases hreplace
      | _ => cases hlookup

/-- Replacing what is at a path edits the document there. -/
theorem edit_of_replace? {doc changed value : Json} {ts : List String}
    (hne : ts ≠ []) (h : doc.replace? ts value = some changed) :
    Edit ts doc changed := by
  induction ts generalizing doc changed with
  | nil => exact absurd rfl hne
  | cons t ts ih =>
      cases doc with
      | object fields =>
          simp only [replace?] at h
          split at h
          · next child hchild =>
              obtain ⟨c, hc, rfl⟩ := Option.map_eq_some_iff.mp h
              cases ts with
              | nil =>
                  exact .field fun key hkey =>
                    Dict.find?_insert_of_ne fields c (Ne.symm hkey)
              | cons next ts => exact .inField hchild (ih (List.cons_ne_nil _ _) hc)
          · cases h
      | array items =>
          simp only [replace?] at h
          split at h
          · split at h
            · obtain ⟨c, -, rfl⟩ := Option.map_eq_some_iff.mp h
              exact .items
            · cases h
          · cases h
      | _ => cases h

end Json

namespace Patch

open Json

/-- A change inside a document finds a container, changes it and puts it back. -/
theorem changeParent_ok_iff {change : String → Json → Except PatchFault Json}
    {doc changed : Json} {above : List String} {token : String} :
    changeParent change doc (above ++ [token]) = .ok changed
      ↔ ∃ parent parent', doc.lookup? above = some parent
        ∧ change token parent = .ok parent' ∧ doc.replace? above parent' = some changed := by
  simp only [changeParent, List.getLast?_concat, List.dropLast_concat, bind, Except.bind]
  constructor
  · intro h
    split at h
    next last parent hlast hparent =>
      obtain rfl := Option.some.inj hlast
      split at h
      · cases h
      next parent' hchange =>
        split at h
        next hreplace =>
          obtain rfl := Except.ok.inj h
          exact ⟨parent, parent', hparent, hchange, hreplace⟩
        · cases h
    · cases h
  · rintro ⟨parent, parent', hparent, hchange, hreplace⟩
    simp only [hparent, hchange, hreplace]

theorem edit_of_changeParent {change : String → Json → Except PatchFault Json}
    (hchange : ∀ {token : String} {parent parent' : Json},
      change token parent = .ok parent' → Edit [token] parent parent')
    {doc changed : Json} {ts : List String}
    (h : changeParent change doc ts = .ok changed) : Edit ts doc changed := by
  rcases List.eq_nil_or_concat ts with rfl | ⟨above, token, rfl⟩
  · cases h
  · rw [List.concat_eq_append] at h ⊢
    obtain ⟨parent, parent', hparent, hparent', hreplace⟩ := changeParent_ok_iff.mp h
    exact edit_inside hparent (hchange hparent') hreplace

theorem edit_of_addTo {value parent parent' : Json} {token : String}
    (h : addTo value token parent = .ok parent') : Edit [token] parent parent' := by
  cases parent with
  | object fields =>
      obtain rfl := Except.ok.inj h
      exact .field fun key hkey =>
        Dict.find?_insert_of_ne fields value (Ne.symm hkey)
  | array items =>
      simp only [addTo] at h
      split at h
      · obtain rfl := Except.ok.inj h
        exact .items
      · split at h
        · split at h
          · obtain rfl := Except.ok.inj h
            exact .items
          · cases h
        · cases h
  | _ => cases h

theorem edit_of_removeFrom {parent parent' : Json} {token : String}
    (h : removeFrom token parent = .ok parent') : Edit [token] parent parent' := by
  cases parent with
  | object fields =>
      simp only [removeFrom] at h
      split at h
      · obtain rfl := Except.ok.inj h
        exact .field fun key hkey => Dict.find?_erase_of_ne fields (Ne.symm hkey)
      · cases h
  | array items =>
      simp only [removeFrom] at h
      split at h
      · obtain rfl := Except.ok.inj h
        exact .items
      · cases h
  | _ => cases h

/-! ## Edits of operations -/

end Patch

/-- The paths an operation writes to, in turn. -/
def PatchOperation.written : PatchOperation → List String
  | add p _ | remove p | replace p _ | copy _ p => [p]
  | move s p => [s, p]
  | test .. => []

namespace Patch

open Json

theorem tokens_ok {path : String} {ts : List String} (h : tokens path = .ok ts) :
    Pointer.parse? path = some ts ∧ ts ≠ [] := by
  simp only [tokens] at h
  split at h
  · cases h
  · cases h
  · next ts' hne hparse =>
      obtain rfl := Except.ok.inj h
      exact ⟨hparse, hne⟩

/-- An operation that applies edits the document at the paths it writes
    to. -/
theorem edits_of_applyOperation {doc changed : Json} {op : PatchOperation}
    (h : applyOperation doc op = .ok changed) :
    ∃ paths, op.written.map Pointer.parse? = paths.map some
      ∧ Edits paths doc changed := by
  cases op with
  | add path value =>
      obtain ⟨ts, hts, h⟩ := except_bind_ok h
      exact ⟨[ts], by simp [PatchOperation.written, (tokens_ok hts).1],
        .cons (edit_of_changeParent edit_of_addTo h) (.nil _)⟩
  | remove path =>
      obtain ⟨ts, hts, h⟩ := except_bind_ok h
      exact ⟨[ts], by simp [PatchOperation.written, (tokens_ok hts).1],
        .cons (edit_of_changeParent edit_of_removeFrom h) (.nil _)⟩
  | replace path value =>
      obtain ⟨ts, hts, h⟩ := except_bind_ok h
      obtain ⟨hparse, hne⟩ := tokens_ok hts
      refine ⟨[ts], by simp [PatchOperation.written, hparse], ?_⟩
      split at h
      · next hreplace =>
          obtain rfl := Except.ok.inj h
          exact .cons (edit_of_replace? hne hreplace) (.nil _)
      · cases h
  | move source path =>
      simp only [applyOperation] at h
      split at h
      · cases h
      · obtain ⟨ss, hss, h⟩ := except_bind_ok h
        obtain ⟨rest, hrest, h⟩ := except_bind_ok h
        obtain ⟨ts, hts, h⟩ := except_bind_ok h
        exact ⟨[ss, ts],
          by simp [PatchOperation.written, (tokens_ok hss).1, (tokens_ok hts).1],
          .cons (edit_of_changeParent edit_of_removeFrom hrest)
            (.cons (edit_of_changeParent edit_of_addTo h) (.nil _))⟩
  | copy source path =>
      obtain ⟨ss, hss, h⟩ := except_bind_ok h
      split at h
      · obtain ⟨ts, hts, h⟩ := except_bind_ok h
        exact ⟨[ts], by simp [PatchOperation.written, (tokens_ok hts).1],
          .cons (edit_of_changeParent edit_of_addTo h) (.nil _)⟩
      · cases h
  | test path value =>
      obtain ⟨ts, hts, h⟩ := except_bind_ok h
      refine ⟨[], rfl, ?_⟩
      split at h
      · split at h
        · obtain rfl := Except.ok.inj h
          exact .nil _
        · cases h
      · cases h

/-- A step passes over an operation or edits the document at the paths that
    the operation writes to. -/
theorem edits_of_step {slug : String} {doc changed : Json} {op : PatchOperation}
    (h : step slug doc op = .ok changed) :
    touchesImmutable op = true ∧ changed = doc
      ∨ touchesImmutable op = false ∧ checkSource slug doc op = .ok ()
        ∧ applyOperation doc op = .ok changed := by
  simp only [step] at h
  split at h
  · next hskip => exact .inl ⟨hskip, (Except.ok.inj h).symm⟩
  · next hskip =>
      obtain ⟨_, hcheck, h⟩ := except_bind_ok h
      refine .inr ⟨by simpa using hskip, hcheck, ?_⟩
      split at h
      · next happly => rw [happly, Except.ok.inj h]
      · cases h

end Patch

/-! ## Frames -/

/-- An operation that is not passed over writes to a part, above it or inside
    it. -/
def PatchOperation.Touches (op : PatchOperation) (part : List String) : Prop :=
  Patch.touchesImmutable op = false
    ∧ ∃ path ∈ op.written, ∃ ts, Pointer.parse? path = some ts ∧ ts ≠ []
      ∧ Json.Meets ts part

namespace Patch

open Json

/-- A step leaves what its operation does not touch. -/
theorem part?_step {slug : String} {doc changed : Json} {op : PatchOperation}
    (h : step slug doc op = .ok changed) {part : List String}
    (hpart : ¬op.Touches part) : changed.part? part = doc.part? part := by
  rcases edits_of_step h with ⟨-, rfl⟩ | ⟨hskip, -, happly⟩
  · rfl
  · obtain ⟨paths, hpaths, hedits⟩ := edits_of_applyOperation happly
    refine hedits.part?_eq fun ts hts hne hmeets => hpart ⟨hskip, ?_⟩
    have hmem : some ts ∈ op.written.map Pointer.parse? :=
      hpaths ▸ List.mem_map_of_mem hts
    obtain ⟨path, hpath, hparse⟩ := List.mem_map.mp hmem
    exact ⟨path, hpath, ts, hparse, hne, hmeets⟩

/-- A step of an object makes an object. -/
theorem object_step {slug : String} {fields : Dict Json} {changed : Json}
    {op : PatchOperation} (h : step slug (.object fields) op = .ok changed) :
    ∃ fields', changed = .object fields' := by
  rcases edits_of_step h with ⟨-, rfl⟩ | ⟨-, -, happly⟩
  · exact ⟨fields, rfl⟩
  · obtain ⟨paths, -, hedits⟩ := edits_of_applyOperation happly
    exact hedits.object

/-- A patch, given the slug that its faults name. -/
def steps (slug : String) (doc : Json) (operations : List PatchOperation) :
    Except Error Json := operations.foldlM (step slug) doc

theorem steps_cons {slug : String} {doc changed : Json} {op : PatchOperation}
    {rest : List PatchOperation} (h : steps slug doc (op :: rest) = .ok changed) :
    ∃ next, step slug doc op = .ok next ∧ steps slug next rest = .ok changed := by
  rw [steps, List.foldlM_cons] at h
  exact except_bind_ok h

theorem object_steps {slug : String} {fields : Dict Json} {changed : Json}
    {operations : List PatchOperation}
    (h : steps slug (.object fields) operations = .ok changed) :
    ∃ fields', changed = .object fields' := by
  induction operations generalizing fields with
  | nil => exact ⟨fields, (Except.ok.inj h).symm⟩
  | cons op rest ih =>
      obtain ⟨next, hstep, hrest⟩ := steps_cons h
      obtain ⟨fields', rfl⟩ := object_step hstep
      exact ih hrest

/-- A patch leaves what none of its operations touches. -/
theorem part?_steps {slug : String} {doc changed : Json}
    {operations : List PatchOperation} (h : steps slug doc operations = .ok changed)
    {part : List String} (hpart : ∀ op ∈ operations, ¬op.Touches part) :
    changed.part? part = doc.part? part := by
  induction operations generalizing doc with
  | nil => rw [Except.ok.inj h]
  | cons op rest ih =>
      obtain ⟨next, hstep, hrest⟩ := steps_cons h
      rw [ih hrest fun op hop => hpart op (List.mem_cons_of_mem _ hop),
        part?_step hstep (hpart op List.mem_cons_self)]

end Patch

end LinkedContracts
