import LinkedContracts.Proofs.Kernel.Patched

/-! # Writing what was prepared

    An insert and a replacement complete a definition, check that it fits its
    type and that the session may write it, and then write it.  Completing
    it uses up an id and a time; a write that is refused changes nothing
    else. -/

namespace LinkedContracts

namespace Kernel

variable {k : Kernel} {mask : Schema} {session : String} {definition : Json}
  {c written : Contract}

/-! ## Preparing -/

/-- A contract that a session with a mask may write. -/
structure Prepared [TextLibrary] (k : Kernel) (mask : Schema) (c : Contract) : Prop where
  identity : c.checkIdentity = .ok ()
  pinned : Reference.ofType c.type = c.type
  fits : ∃ schema, k.typeSchema c.type = .ok schema
    ∧ schema.check c.toJson k.linkSource = .ok ()
  accepted : k.accepts mask c.toJson = .ok true

theorem ofType_ofType (type : String) :
    Reference.ofType (Reference.ofType type) = Reference.ofType type := by
  by_cases hat : '@' ∈ type.toList
  · simp [Reference.ofType, hat]
  · simp [Reference.ofType, hat]

theorem checkIdentity_of_ofPartial [TextLibrary] {id : String} {now : Instant}
    (h : Contract.ofPartial id now definition = .ok c) :
    c.checkIdentity = .ok () := by
  cases definition with
  | object fields =>
      simp only [Contract.ofPartial] at h
      split at h
      · cases h
      split at h
      · cases h
      obtain ⟨slug, -, h⟩ := except_bind_ok h
      split at h
      · cases h
      next d hd =>
        obtain ⟨_, hcheck, h⟩ := except_bind_ok h
        obtain rfl := Except.ok.inj h
        exact hcheck
  | _ => cases h

/-- A definition completed and with its types pinned. -/
def normalized (c : Contract) : Contract :=
  Link.pinEndpoints { c with type := Reference.ofType c.type }

/-- Completing a definition uses up an id and a time. -/
theorem normalize_run [TextLibrary]
    (hc : Contract.ofPartial (k.supply.id k.supply.used) k.supply.now definition = .ok c) :
    (normalize definition).run k
      = (.ok (normalized c), { k with supply := k.supply.next }) := by
  have hcomplete : (complete definition).run k = (.ok c, { k with supply := k.supply.next }) := by
    rw [← hc]
    rfl
  rw [normalize, Stateful.run_bind, hcomplete]
  rfl

theorem checkIdentity_normalized (c : Contract) :
    (normalized c).checkIdentity = c.checkIdentity := by
  rw [normalized, Link.pinEndpoints]
  split <;> rfl

theorem type_normalized (c : Contract) :
    (normalized c).type = Reference.ofType c.type := by
  rw [normalized, Link.pinEndpoints]
  split <;> rfl

section

variable [TextLibrary]

/-- Check that a completed contract may be written. -/
def checkPrepared (k : Kernel) (mask : Schema) (c : Contract) :
    Except Error Contract := do
  let schema ← k.typeSchema c.type
  schema.check c.toJson k.linkSource
  if ← k.accepts mask c.toJson then return c
  else .error (.mayNotWrite c.versionedSlug)

theorem checkPrepared_ok {d : Contract} (h : k.checkPrepared mask c = .ok d) :
    d = c ∧ (∃ schema, k.typeSchema c.type = .ok schema
      ∧ schema.check c.toJson k.linkSource = .ok ())
      ∧ k.accepts mask c.toJson = .ok true := by
  obtain ⟨schema, hschema, h⟩ := except_bind_ok h
  obtain ⟨_, hcheck, h⟩ := except_bind_ok h
  obtain ⟨accepted, haccepts, h⟩ := except_bind_ok h
  cases accepted with
  | true => exact ⟨(Except.ok.inj h).symm, ⟨schema, hschema, hcheck⟩, haccepts⟩
  | false => cases h

/-- What may be written depends on nothing of the supply. -/
theorem checkPrepared_supply (k : Kernel) (supply : Supply) (mask : Schema)
    (c : Contract) :
    ({ k with supply := supply } : Kernel).checkPrepared mask c
      = k.checkPrepared mask c := rfl

/-- Preparing a definition uses up an id and a time, whatever comes of it. -/
theorem prepare_run (k : Kernel) (mask : Schema) (definition : Json) :
    (prepare mask definition).run k
      = ((Contract.ofPartial (k.supply.id k.supply.used) k.supply.now definition).bind
          fun c => k.checkPrepared mask (normalized c),
        { k with supply := k.supply.next }) := by
  have hcomplete : (complete definition).run k
      = (Contract.ofPartial (k.supply.id k.supply.used) k.supply.now definition,
        { k with supply := k.supply.next }) := rfl
  rw [prepare, Stateful.run_bind, normalize, Stateful.run_bind, hcomplete]
  cases Contract.ofPartial (k.supply.id k.supply.used) k.supply.now definition with
  | ok c =>
      show (checkPrepared { k with supply := k.supply.next } mask (normalized c), _) = _
      rw [checkPrepared_supply, Except.bind]
  | error e => rfl

/-- A definition that may be written when it is completed is prepared. -/
theorem prepare_ok {d : Contract}
    (hpartial : Contract.ofPartial (k.supply.id k.supply.used) k.supply.now definition = .ok c)
    (hcheck : k.checkPrepared mask (normalized c) = .ok d) :
    ((prepare mask definition).run k).1 = .ok d := by
  rw [prepare_run, hpartial]
  simp only [Except.bind, hcheck]

/-- What a session prepares it may write. -/
theorem prepared_of_prepare (h : ((prepare mask definition).run k).1 = .ok c) :
    k.Prepared mask c := by
  rw [prepare_run] at h
  obtain ⟨d, hd, h⟩ := except_bind_ok h
  obtain ⟨rfl, hfits, haccepts⟩ := checkPrepared_ok h
  refine ⟨?_, ?_, hfits, haccepts⟩
  · rw [checkIdentity_normalized, checkIdentity_of_ofPartial hd]
  · rw [type_normalized, ofType_ofType]

/-! ## Inserting and replacing -/

/-- The part of a replacement that is all or nothing. -/
def replaceNamed (mask : Schema) (c : Contract) : Action Contract := do
  reading fun k => k.checkReplaced mask c
  upsert c

theorem insertFor_run (k : Kernel) (session : String) (definition : Json) :
    (insertFor session definition).run k
      = match k.mask session with
        | .error e => (.error e, k)
        | .ok mask => match ((prepare mask definition).run k).1 with
          | .error e => (.error e, { k with supply := k.supply.next })
          | .ok c => (insert c).run { k with supply := k.supply.next } := by
  rw [insertFor, Stateful.run_bind, run_reading]
  cases k.mask session with
  | error e => rfl
  | ok mask =>
      dsimp only
      rw [Stateful.run_bind, prepare_run]
      cases (Contract.ofPartial _ _ definition).bind _ <;> rfl

theorem replaceFor_run (k : Kernel) (session : String) (definition : Json) :
    (replaceFor session definition).run k
      = match k.mask session with
        | .error e => (.error e, k)
        | .ok mask => match ((prepare mask definition).run k).1 with
          | .error e => (.error e, { k with supply := k.supply.next })
          | .ok c => (transaction (replaceNamed mask c)).run
              { k with supply := k.supply.next } := by
  rw [replaceFor, Stateful.run_bind, run_reading]
  cases k.mask session with
  | error e => rfl
  | ok mask =>
      dsimp only
      rw [Stateful.run_bind, prepare_run]
      cases (Contract.ofPartial _ _ definition).bind _ <;> rfl

/-- An insert fails and leaves the contents of the store, or writes what was
    prepared. -/
theorem insertFor_store (k : Kernel) (session : String) (definition : Json) :
    let after := (insertFor session definition).run k
    (∃ e, after.1 = .error e) ∧ SameContents after.2.store k.store
      ∨ ∃ mask c written store, k.mask session = .ok mask
        ∧ ((prepare mask definition).run k).1 = .ok c
        ∧ k.store.write k.supply.next.now .insert c = .ok (written, store)
        ∧ Left after written store := by
  rw [insertFor_run]
  cases k.mask session with
  | error e => exact .inl ⟨⟨e, rfl⟩, rfl, rfl⟩
  | ok mask =>
      dsimp only
      cases hc : ((prepare mask definition).run k).1 with
      | error e => exact .inl ⟨⟨e, rfl⟩, rfl, rfl⟩
      | ok c =>
          rcases write_store .insert c { k with supply := k.supply.next } with
            ⟨e, -, he, hsame⟩ | ⟨written, store, hwrite, hleft⟩
          · exact .inl ⟨⟨e, he⟩, hsame⟩
          · exact .inr ⟨mask, c, written, store, rfl, hc, hwrite, hleft⟩

/-- The part of a replacement that is all or nothing fails and leaves the
    contents, or what was prepared is written. -/
theorem replaceNamed_store (k : Kernel) (mask : Schema) (c : Contract) :
    let after := (replaceNamed mask c).run k
    (∃ e, after.1 = .error e) ∧ SameContents after.2.store k.store
      ∨ ∃ written store, (k.checkReplaced mask c = .ok ()
          ∧ k.store.write k.supply.now .upsert c = .ok (written, store))
        ∧ Left after written store := by
  rw [replaceNamed, Stateful.run_bind, run_reading]
  cases hcheck : k.checkReplaced mask c with
  | error e => exact .inl ⟨⟨e, rfl⟩, rfl, rfl⟩
  | ok _ =>
      dsimp only
      rcases upsert_store c k with ⟨herror, hsame⟩ | ⟨written, store, hwrite, hleft⟩
      · exact .inl ⟨herror, hsame⟩
      · exact .inr ⟨written, store, ⟨rfl, hwrite⟩, hleft⟩

end

/-- A transaction that fails or leaves a store does as its body does. -/
theorem transaction_left {α : Type} (body : Action α) (k : Kernel)
    {P : α → Store → Prop}
    (h : let inside := body.run { k with depth := k.depth + 1 }
      (∃ e, inside.1 = .error e) ∧ SameContents inside.2.store k.store
        ∨ ∃ a s, P a s ∧ Left inside a s) :
    let after := (transaction body).run k
    (∃ e, after.1 = .error e) ∧ SameContents after.2.store k.store
      ∨ ∃ a s, P a s ∧ Left after a s := by
  obtain ⟨hresult, hstore⟩ := transaction_store body k
  dsimp only at h hresult hstore ⊢
  rw [hresult]
  rcases h with ⟨herror, hrows, hedges⟩ | ⟨a, s, hP, hok, hrows, hedges⟩
  · refine .inl ⟨herror, ?_⟩
    rcases hstore with ⟨hrows', hedges'⟩ | ⟨-, hsame⟩
    · exact ⟨hrows'.trans hrows, hedges'.trans hedges⟩
    · exact hsame
  · refine .inr ⟨a, s, hP, hresult.trans hok, ?_⟩
    rcases hstore with ⟨hrows', hedges'⟩ | ⟨⟨e, he⟩, -⟩
    · exact ⟨hrows'.trans hrows, hedges'.trans hedges⟩
    · rw [hok] at he
      cases he

/-- A replacement fails and leaves the contents of the store, or what was
    prepared is written. -/
theorem replaceFor_store [TextLibrary] (k : Kernel) (session : String) (definition : Json) :
    let after := (replaceFor session definition).run k
    (∃ e, after.1 = .error e) ∧ SameContents after.2.store k.store
      ∨ ∃ mask c written store, k.mask session = .ok mask
        ∧ ((prepare mask definition).run k).1 = .ok c
        ∧ k.checkReplaced mask c = .ok ()
        ∧ k.store.write k.supply.next.now .upsert c = .ok (written, store)
        ∧ Left after written store := by
  rw [replaceFor_run]
  cases k.mask session with
  | error e => exact .inl ⟨⟨e, rfl⟩, rfl, rfl⟩
  | ok mask =>
      dsimp only
      cases hc : ((prepare mask definition).run k).1 with
      | error e => exact .inl ⟨⟨e, rfl⟩, rfl, rfl⟩
      | ok c =>
          dsimp only
          have hrun := transaction_left (replaceNamed mask c)
            { k with supply := k.supply.next }
            (P := fun written store => k.checkReplaced mask c = .ok ()
              ∧ k.store.write k.supply.next.now .upsert c = .ok (written, store))
            (replaceNamed_store _ mask c)
          rcases hrun with hfailed | ⟨written, store, ⟨hcheck, hwrite⟩, hleft⟩
          · exact .inl hfailed
          · exact .inr ⟨mask, c, written, store, rfl, hc, hcheck, hwrite, hleft⟩

/-! ## Writes that cannot fail -/

/-- What can be kept is written, over what exists already if need be. -/
theorem upsert_canonical {e : Contract} (he : Store.canonical c = .ok e)
    (s : Store) (now : Instant) :
    ∃ written t, s.write now .upsert c = .ok (written, t) := by
  cases hexisting : s.existing? e with
  | none => exact ⟨_, _, Store.write_fresh .upsert he hexisting now⟩
  | some found => exact ⟨_, _, Store.write_existing he hexisting now⟩

end Kernel

end LinkedContracts
