import LinkedContracts.Kernel.Boot
import LinkedContracts.Kernel.Write
import LinkedContracts.Proofs.Stateful
import LinkedContracts.Proofs.Store.Identity

/-! # Reachable kernels

    A program works on a kernel through its operations, in whatever order and
    with whatever it makes of their results, inside transactions or not.  A
    relation between kernels that each way to change one keeps is kept by
    every program.

    The kernels that programs lead to are sound: their contracts are told
    apart, and their settings make sense. -/

namespace LinkedContracts

namespace Kernel

open Stateful

/-- What an operation comes to, as a result. -/
def attempt {α : Type} (x : Action α) : Action (Except Error α) := fun k =>
  (.ok (x.run k).1, (x.run k).2)

/-- What a user of a kernel can do. -/
inductive Program [TextLibrary] : {α : Type} → Action α → Prop where
  | reading {α : Type} (f : Kernel → Except Error α) : Program (reading f)
  | attempt {α : Type} {x : Action α} (hx : Program x) : Program (attempt x)
  | bind {α β : Type} {x : Action α} {g : α → Action β} (hx : Program x)
      (hg : ∀ a, Program (g a)) : Program (x >>= g)
  | transaction {α : Type} {x : Action α} (hx : Program x) :
      Program (transaction x)
  | boot : Program boot
  | insert (session : String) (definition : Json) :
      Program (insertFor session definition)
  | replace (session : String) (definition : Json) :
      Program (replaceFor session definition)
  | patch (session reference : String) (operations : List PatchOperation) :
      Program (patchFor session reference operations)
  | write (mode : WriteMode) (c : Contract) : Program (write mode c)

/-- A new kernel has settings that make sense and nothing else. -/
theorem create_ok {settings : Settings} {supply : Supply} {k : Kernel}
    (h : create settings supply = .ok k) :
    settings.check = .ok () ∧ k = { settings, supply } := by
  simp only [create, bind, Except.bind] at h
  split at h
  · cases h
  · next hcheck =>
      split at h
      · exact ⟨hcheck, (Except.ok.inj h).symm⟩
      · cases h

/-- The kernels that programs lead to, from an empty store. -/
inductive Reachable [TextLibrary] : Kernel → Prop where
  | created {settings : Settings} {supply : Supply} {k : Kernel}
      (h : create settings supply = .ok k) : Reachable k
  /-- A program ran, and succeeded or failed. -/
  | ran {α : Type} {x : Action α} {k : Kernel} (hx : Program x)
      (hk : Reachable k) : Reachable (x.run k).2
  /-- A transaction was begun. -/
  | begun {k : Kernel} (hk : Reachable k) :
      Reachable { k with depth := k.depth + 1 }
  | reopened {k : Kernel} (hk : Reachable k) : Reachable k.reopened

/-- A run goes on from one kernel to another. -/
inductive Onward [TextLibrary] : Kernel → Kernel → Prop where
  | here (k : Kernel) : Onward k k
  | ran {α : Type} {x : Action α} {k l : Kernel} (hx : Program x) (h : Onward k l) :
      Onward k (x.run l).2
  | begun {k l : Kernel} (h : Onward k l) : Onward k { l with depth := l.depth + 1 }
  | reopened {k l : Kernel} (h : Onward k l) : Onward k l.reopened

theorem Onward.reachable [TextLibrary] {k l : Kernel} (h : Onward k l) (hk : Reachable k) :
    Reachable l := by
  induction h with
  | here => exact hk
  | ran hx _ ih => exact .ran hx (ih hk)
  | begun _ ih => exact .begun (ih hk)
  | reopened _ ih => exact .reopened (ih hk)

/-- A relation that writes and transactions keep, as the wholes they are. -/
structure Upheld (R : Kernel → Kernel → Prop) : Prop extends Steady R where
  write : ∀ (mode : WriteMode) (c : Contract), Keeps R (write mode c)
  supplied : ∀ k : Kernel, R k { k with supply := k.supply.next }
  transaction : ∀ {α : Type} {x : Action α}, Keeps R x →
    Keeps R (transaction x)

/-- A relation that each way to change a kernel keeps. -/
structure Stable (R : Kernel → Kernel → Prop) : Prop extends Steady R where
  written : ∀ {k : Kernel} {mode : WriteMode} {c written : Contract}
    {store : Store}, k.store.write k.supply.now mode c = .ok (written, store) →
    R k { k with store := store, supply := k.supply.next }
  supplied : ∀ k : Kernel, R k { k with supply := k.supply.next }
  administered : ∀ (k : Kernel) (id : String),
    R k { k with adminSession := some id }
  transaction : ∀ {α : Type} {x : Action α}, Keeps R x →
    Keeps R (transaction x)

namespace Upheld

variable {R : Kernel → Kernel → Prop} (h : Upheld R) {α β : Type}

include h

theorem reading (f : Kernel → Except Error α) : Keeps R (reading f) :=
  fun k => h.refl k

theorem upsert (c : Contract) : Keeps R (upsert c) := by
  refine h.bind h.get fun k => ?_
  split
  · exact h.throw _
  · exact h.write _ c

section

variable [TextLibrary]

theorem normalize (definition : Json) : Keeps R (normalize definition) :=
  h.bind (fun k => h.supplied k) fun _ => h.pure _

theorem prepare (mask : Schema) (definition : Json) :
    Keeps R (prepare mask definition) :=
  h.bind (h.normalize definition) fun _ => h.reading _

theorem insertFor (session : String) (definition : Json) :
    Keeps R (insertFor session definition) :=
  h.bind (h.reading _) fun mask =>
    h.bind (h.prepare mask definition) fun c => h.write _ c

theorem replaceFor (session : String) (definition : Json) :
    Keeps R (replaceFor session definition) :=
  h.bind (h.reading _) fun mask =>
    h.bind (h.prepare mask definition) fun c =>
      h.transaction (h.bind (h.reading _) fun _ => h.upsert c)

theorem patchFor (session reference : String)
    (operations : List PatchOperation) :
    Keeps R (patchFor session reference operations) := by
  refine h.bind (h.lift _) fun r => h.bind (h.reading _) fun mask =>
    h.transaction (h.bind (h.reading _) fun p => ?_)
  split
  · exact h.pure _
  · exact h.bind (h.upsert _) fun _ => h.pure _

theorem bootstrap (definition : Json) : Keeps R (bootstrap definition) :=
  h.bind (h.normalize definition) fun c =>
    h.bind (h.reading _) fun _ => h.upsert c

end

theorem mapM {f : α → Action β} (hf : ∀ a, Keeps R (f a)) (l : List α) :
    Keeps R (l.mapM f) := by
  induction l with
  | nil => exact h.pure _
  | cons a rest ih =>
      rw [List.mapM_cons]
      exact h.bind (hf a) fun b => h.bind ih fun bs => h.pure _

variable [TextLibrary]

theorem bootstrapAll : Keeps R bootstrapAll :=
  h.bind (h.mapM h.bootstrap _) fun _ =>
    h.bind (h.bootstrap _) fun _ => h.bind (h.bootstrap _) fun _ =>
    h.bind (h.bootstrap _) fun _ =>
    h.bind (h.mapM h.bootstrap _) fun _ => h.pure _

theorem boot (hadmin : ∀ (k : Kernel) (id : String),
    R k { k with adminSession := some id }) : Keeps R boot :=
  h.bind (h.transaction h.bootstrapAll) fun session =>
    h.bind (fun k => hadmin k session.id) fun _ => h.pure _

end Upheld

theorem Stable.upheld {R : Kernel → Kernel → Prop} (h : Stable R) : Upheld R where
  toSteady := h.toSteady
  write mode c := by
    refine h.transaction fun k => ?_
    simp only [ExceptT.run]
    split
    · next written store hw => exact h.written hw
    · exact h.refl k
  supplied := h.supplied
  transaction := h.transaction

/-- What writes, transactions and the naming of an administrator keep, every
    program keeps. -/
theorem Program.upholds [TextLibrary] {R : Kernel → Kernel → Prop} (h : Upheld R)
    (hadmin : ∀ (k : Kernel) (id : String), R k { k with adminSession := some id })
    {α : Type} {x : Action α} (hx : Program x) : Keeps R x := by
  induction hx with
  | reading f => exact h.reading f
  | attempt _ ih => exact fun k => ih k
  | bind _ _ ihx ihg => exact h.bind ihx ihg
  | transaction _ ih => exact h.transaction ih
  | boot => exact h.boot hadmin
  | insert session definition => exact h.insertFor session definition
  | replace session definition => exact h.replaceFor session definition
  | patch session reference operations =>
      exact h.patchFor session reference operations
  | write mode c => exact h.write mode c

/-- What each way to change a kernel keeps, every program keeps. -/
theorem Program.keeps [TextLibrary] {R : Kernel → Kernel → Prop} (h : Stable R) {α : Type}
    {x : Action α} (hx : Program x) : Keeps R x :=
  hx.upholds h.upheld h.administered

/-! ## Soundness -/

/-- A kernel in working order: its settings make sense, its contracts are
    told apart, and nothing is out of order. -/
structure Sound (k : Kernel) : Prop where
  settings : k.settings.check = .ok ()
  store : k.store.Sound
  outage : k.outage = none

theorem sound_stable : Stable fun k l => k.Sound → l.Sound where
  refl _ hk := hk
  trans hst htu hs := htu (hst hs)
  written hw hk := ⟨hk.settings, hk.store.write hw, hk.outage⟩
  supplied _ hk := ⟨hk.settings, hk.store, hk.outage⟩
  administered _ _ hk := ⟨hk.settings, hk.store, hk.outage⟩
  transaction {α} x hx k hk := by
    have hbody := hx { k with depth := k.depth + 1 }
      ⟨hk.settings, hk.store, hk.outage⟩
    simp only [Kernel.transaction, ExceptT.run] at hbody ⊢
    cases hb : x { k with depth := k.depth + 1 } with
    | mk result after =>
        rw [hb] at hbody
        dsimp only
        split
        · exact ⟨hbody.settings, hbody.store, hbody.outage⟩
        · cases result with
          | ok a => exact ⟨hbody.settings, hbody.store.of_rows rfl, hbody.outage⟩
          | error e => exact ⟨hbody.settings, hk.store.of_rows rfl, hbody.outage⟩

/-- Reachable kernels are sound. -/
theorem Reachable.sound [TextLibrary] {k : Kernel} (h : Reachable k) : k.Sound := by
  induction h with
  | created h =>
      obtain ⟨hcheck, rfl⟩ := create_ok h
      exact ⟨hcheck, Store.sound_empty, rfl⟩
  | ran hx _ ih => exact hx.keeps sound_stable _ ih
  | begun _ ih => exact ⟨ih.settings, ih.store, ih.outage⟩
  | reopened _ ih => exact ⟨ih.settings, ih.store, rfl⟩

end Kernel

end LinkedContracts
