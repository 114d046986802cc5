import LinkedContracts.Feed
import LinkedContracts.Proofs.Kernel.Replaced

/-! # Failed operations

    An operation that fails leaves the kernel as it was, but for the ids and
    times it used up.  What sessions do leaves it so inside a transaction too,
    which goes on after the failure and undoes nothing: whatever can fail comes
    before the one write.

    Initializing writes one contract after another, and fails halfway.  It is
    undone by its transaction, unless that is part of another one. -/

namespace LinkedContracts

namespace Kernel

open Stateful

variable {k l : Kernel} {α β : Type} {e : Error}

/-! ## What is used up -/

/-- The kernel that has used so many ids and times. -/
def spend (k : Kernel) (used : Nat) : Kernel :=
  { k with supply := { k.supply with used := used } }

/-- Nothing was done but to use up ids and times. -/
def Spent (k l : Kernel) : Prop := ∃ used, l = k.spend used

/-- Use up ids and times. -/
def spending (used : Nat) : Action Unit := modify fun k => k.spend used

theorem spent_steady : Steady Spent where
  refl k := ⟨k.supply.used, rfl⟩
  trans := by
    rintro k - - ⟨m, rfl⟩ ⟨n, rfl⟩
    exact ⟨n, rfl⟩

theorem spent_prepare [TextLibrary] (mask : Schema) (definition : Json) :
    Keeps Spent (prepare mask definition) := by
  intro k
  rw [prepare_run]
  exact ⟨k.supply.used + 1, rfl⟩

/-! ## Transactions -/

/-- A transaction by itself that fails puts back the store. -/
theorem transaction_failed {x : Action α} (h : k.depth = 0)
    (he : ((transaction x).run k).1 = .error e) :
    let inside := x.run { k with depth := k.depth + 1 }
    inside.1 = .error e ∧ ((transaction x).run k).2
      = { inside.2 with depth := k.depth, store := { k.store with pending := [] } } := by
  have hinside := (transaction_store x k).1.symm.trans he
  refine ⟨hinside, ?_⟩
  rw [transaction_outer x h, hinside]

/-- Outside transactions all changes were announced. -/
def Settled (k : Kernel) : Prop := k.depth = 0 → k.store.pending = []

theorem settled_transaction (x : Action α) (k : Kernel) :
    ((transaction x).run k).2.Settled := by
  by_cases h : 0 < k.depth
  · rw [transaction_inner x h]
    intro hdepth
    exact absurd hdepth (Nat.ne_of_gt h)
  · intro _
    rw [transaction_outer x (Nat.eq_zero_of_not_pos h)]
    split <;> rfl

theorem settled_upheld : Upheld fun k l => k.Settled → l.Settled where
  refl _ hk := hk
  trans hkl hlm hk := hlm (hkl hk)
  write mode c k _ := by
    rw [write_eq]
    exact settled_transaction _ k
  supplied _ hk := hk
  transaction _ k _ := settled_transaction _ k

theorem Reachable.settled [TextLibrary] (h : Reachable k) : k.Settled := by
  induction h with
  | created h =>
      obtain ⟨-, rfl⟩ := create_ok h
      exact fun _ => rfl
  | ran hx _ ih => exact hx.upholds settled_upheld (fun _ _ hk => hk) _ ih
  | begun _ _ => exact fun hdepth => absurd hdepth (Nat.succ_ne_zero _)
  | reopened _ ih => exact ih

/-! ## Operations that leave nothing behind -/

/-- An operation that fails does nothing but use up ids and times. -/
def Undone (x : Action α) : Prop :=
  ∀ k e, k.Settled → (x.run k).1 = .error e → Spent k (x.run k).2

namespace Undone

theorem of_spent {x : Action α} (h : Keeps Spent x) : Undone x :=
  fun k _ _ _ => h k

theorem reading (f : Kernel → Except Error α) : Undone (reading f) :=
  of_spent fun k => spent_steady.refl k

/-- A first step may use up ids and times. -/
theorem after {x : Action α} {g : α → Action β} (hx : Keeps Spent x)
    (hg : ∀ a, Undone (g a)) : Undone (x >>= g) := by
  intro k e hk he
  have hspent := hx k
  rw [run_bind] at he ⊢
  cases hr : x.run k with
  | mk result t =>
      rw [hr] at he hspent
      cases result with
      | error _ => exact hspent
      | ok a =>
          obtain ⟨used, rfl⟩ := hspent
          exact spent_steady.trans ⟨used, rfl⟩ (hg a (k.spend used) e hk he)

theorem afterReading {f : Kernel → Except Error α} {g : α → Action β}
    (hg : ∀ a, Undone (g a)) : Undone (Kernel.reading f >>= g) :=
  after (fun k => spent_steady.refl k) hg

/-- A last step that cannot fail may do anything. -/
theorem before {x : Action α} {g : α → Action β} (hx : Undone x)
    (hg : ∀ a t, ∃ b, ((g a).run t).1 = .ok b) : Undone (x >>= g) := by
  intro k e hk he
  have hspent := hx k
  rw [run_bind] at he ⊢
  cases hr : x.run k with
  | mk result t =>
      rw [hr] at he hspent
      cases result with
      | error e => exact hspent e hk rfl
      | ok a =>
          obtain ⟨b, hb⟩ := hg a t
          cases hb.symm.trans he

protected theorem transaction {x : Action α} (hx : Undone x) :
    Undone (transaction x) := by
  intro k e hk he
  by_cases hdepth : 0 < k.depth
  · rw [transaction_inner x hdepth] at he ⊢
    obtain ⟨used, hinside⟩ := hx _ e (fun h => absurd h (Nat.succ_ne_zero _)) he
    exact ⟨used, by rw [hinside]; rfl⟩
  · have hzero : k.depth = 0 := Nat.eq_zero_of_not_pos hdepth
    obtain ⟨hfailed, hafter⟩ := transaction_failed hzero he
    obtain ⟨used, hinside⟩ := hx _ e (fun h => absurd h (Nat.succ_ne_zero _)) hfailed
    -- nothing was pending, so that the store put back is the one before
    have hstore : ({ k.store with pending := [] } : Store) = k.store := by
      rw [← hk hzero]
    exact ⟨used, by rw [hafter, hinside, hstore]; rfl⟩

theorem writeInside (mode : WriteMode) (c : Contract) :
    Undone (writeInside mode c) := by
  intro k e _ he
  simp only [Kernel.writeInside, ExceptT.run] at he ⊢
  cases hw : k.store.write k.supply.now mode c with
  | error e => exact spent_steady.refl k
  | ok written => rw [hw] at he; cases he

theorem write (mode : WriteMode) (c : Contract) : Undone (write mode c) := by
  rw [write_eq]
  exact (writeInside mode c).transaction

theorem upsert (c : Contract) : Undone (upsert c) := by
  refine after spent_steady.get fun k => ?_
  split
  · exact of_spent (spent_steady.throw _)
  · exact write .upsert c

variable [TextLibrary]

theorem insertFor (session : String) (definition : Json) :
    Undone (insertFor session definition) :=
  afterReading fun mask =>
    after (spent_prepare mask definition) fun c => write .insert c

theorem replaceNamed (mask : Schema) (c : Contract) : Undone (replaceNamed mask c) :=
  afterReading fun _ => upsert c

theorem replaceFor (session : String) (definition : Json) :
    Undone (replaceFor session definition) :=
  afterReading fun mask =>
    after (spent_prepare mask definition) fun c => (replaceNamed mask c).transaction

theorem patchNamed (mask : Schema) (reference : String) (r : Reference)
    (operations : List PatchOperation) :
    Undone (patchNamed mask reference r operations) := by
  refine afterReading fun p => ?_
  split
  · exact of_spent (spent_steady.pure _)
  · -- the view is returned whatever was written
    exact (upsert _).before fun _ _ => ⟨p.view, rfl⟩

theorem patchFor (session reference : String) (operations : List PatchOperation) :
    Undone (patchFor session reference operations) :=
  after (spent_steady.lift _) fun r =>
    afterReading fun mask => (patchNamed mask reference r operations).transaction

end Undone

/-! ## Initializing -/

/-- Inside a transaction only the store changes, besides what is used up. -/
def Within (k l : Kernel) : Prop :=
  0 < k.depth → ∃ store, Spent { k with store := store } l

theorem within_steady : Steady Within where
  refl k _ := ⟨k.store, spent_steady.refl k⟩
  trans := by
    intro k l m hkl hlm hdepth
    obtain ⟨middle, used, rfl⟩ := hkl hdepth
    obtain ⟨store, used, rfl⟩ := hlm hdepth
    exact ⟨store, used, rfl⟩

theorem within_transaction {x : Action α} (hx : Keeps Within x) :
    Keeps Within (transaction x) := by
  intro k hdepth
  obtain ⟨store, used, hinside⟩ := hx { k with depth := k.depth + 1 } (Nat.succ_pos _)
  rw [transaction_inner x hdepth]
  exact ⟨store, used, by rw [hinside]; rfl⟩

theorem within_upheld : Upheld Within where
  toSteady := within_steady
  write mode c := by
    rw [write_eq]
    refine within_transaction fun k _ => ?_
    simp only [writeInside, ExceptT.run]
    split
    · next written store _ => exact ⟨store, k.supply.used + 1, rfl⟩
    · exact ⟨k.store, spent_steady.refl k⟩
  supplied k _ := ⟨k.store, k.supply.used + 1, rfl⟩
  transaction := within_transaction

/-- A transaction by itself that fails leaves nothing behind, whatever it wrote
    before. -/
theorem spent_of_transaction {x : Action α} (hx : Keeps Within x)
    (hdepth : k.depth = 0) (hk : k.Settled)
    (he : ((transaction x).run k).1 = .error e) :
    Spent k ((transaction x).run k).2 := by
  obtain ⟨-, hafter⟩ := transaction_failed hdepth he
  obtain ⟨store, used, hinside⟩ := hx { k with depth := k.depth + 1 } (Nat.succ_pos _)
  have hstore : ({ k.store with pending := [] } : Store) = k.store := by
    rw [← hk hdepth]
  exact ⟨used, by rw [hafter, hinside, hstore]; rfl⟩

theorem spent_of_boot [TextLibrary] (hdepth : k.depth = 0) (hk : k.Settled)
    (he : (boot.run k).1 = .error e) : Spent k (boot.run k).2 := by
  have hspent := @spent_of_transaction k _ e _ within_upheld.bootstrapAll hdepth hk
  rw [boot, run_bind] at he ⊢
  cases hr : (transaction bootstrapAll).run k with
  | mk result t =>
      rw [hr] at he hspent
      cases result with
      | error e' =>
          obtain rfl := Except.error.inj he
          exact hspent rfl
      | ok session => cases he

/-! ## Refusals -/

/-- The contract named "Mine" would take the place of the card. -/
theorem existing?_offer : (guarded titled).store.existing? (mine "card") = some card :=
  (guarded_reachable titled).sound.store.existing?_eq_some.mpr
    ⟨card_mem_guarded reread_titled, .inr ⟨versioned?_mine _, rfl⟩⟩

theorem checkPrepared_depth [TextLibrary] (k : Kernel) (depth : Nat) (mask : Schema)
    (c : Contract) : ({ k with depth := depth } : Kernel).checkPrepared mask c = k.checkPrepared mask c :=
  rfl

/-- What may be written depends on no transaction. -/
theorem prepare_depth [TextLibrary] (k : Kernel) (depth : Nat) (mask : Schema) (definition : Json) :
    ((prepare mask definition).run { k with depth := depth }).1
      = ((prepare mask definition).run k).1 := by
  rw [prepare_run, prepare_run]
  exact congrArg (Except.bind _) (funext fun c => checkPrepared_depth k depth mask _)

/-- An insert whose write is refused is refused, in a transaction or not. -/
theorem insertFor_refused [TextLibrary] {mask : Schema} {session : String} {definition : Json}
    {c : Contract} (hmask : k.mask session = .ok mask)
    (hc : ((prepare mask definition).run k).1 = .ok c)
    (hrefused : ∀ now, k.store.write now .insert c = .error e) (depth : Nat) :
    ∃ e, ((insertFor session definition).run { k with depth := depth }).1
      = .error e := by
  rcases insertFor_store { k with depth := depth } session definition with
    ⟨herror, -⟩ | ⟨mask', c', written, store, hmask', hc', hwrite, -⟩
  · exact herror
  · have hsame : k.mask session = .ok mask' := hmask'
    rw [hmask] at hsame
    obtain rfl := Except.ok.inj hsame
    rw [prepare_depth, hc] at hc'
    obtain rfl := Except.ok.inj hc'
    cases (hrefused _).symm.trans hwrite

/-- The reader may offer the contract, but not insert it. -/
theorem offer_refused (depth : Nat) :
    ∃ e, ((insertFor "reader" (offer "card")).run
      { guarded titled with depth := depth }).1 = .error e :=
  insertFor_refused mask_titled prepare_usurper
    (Store.write_refused (Store.canonical_first rfl rfl rfl rfl) existing?_offer) depth

/-- A type that nothing fits, in the place of the type of types. -/
def void : Contract :=
  { card with id := "type", slug := "type", data := .object [("schema", .bool false)] }

/-- The kernel after the type was written. -/
def voided : Kernel := ((write .insert void).run empty).2

theorem voided_reachable : Reachable voided :=
  have hempty : create {} empty.supply = .ok empty := rfl
  .ran (.write _ _) (.created hempty)

theorem voided_eq : ∃ announced, voided = { empty with
    supply := empty.supply.next
    store := ⟨[("type", .ofContract void)], [], []⟩
    announced } := by
  rw [voided, write_new rfl (Store.canonical_first rfl rfl rfl rfl) rfl
    (ofContract?_of_card rfl)]
  exact ⟨_, rfl⟩

theorem typeSchema_void {k : Kernel} (h : k.store.rows = [("type", .ofContract void)]) :
    k.typeSchema "type@1.0.0" = .ok (.bool false) := by
  have hvoid : void.reread = some void :=
    Contract.reread_eq rfl rfl rfl parse?_start rfl rfl nofun
  have hfind : k.store.find? "type" (.exact Version.initial) = some void := by
    have hslug : void.slug = "type" := rfl
    have hversion : void.version = Version.initial.text := by decide
    simp [Store.find?, Store.versioned?, h, hvoid, hslug, hversion]
  exact typeSchema_eq (r := ⟨"type", .exact Version.initial⟩) rfl hfind rfl

/-- What a built-in contract has to satisfy depends on nothing of the supply. -/
theorem builtinSchema_supply (k : Kernel) (supply : Supply) (c : Contract) :
    ({ k with supply := supply } : Kernel).builtinSchema c = k.builtinSchema c := rfl

/-- A built-in contract that does not fit its type is not written. -/
theorem bootstrap_refused [TextLibrary] {definition : Json} {c : Contract} {schema : Schema}
    (hc : Contract.ofPartial (k.supply.id k.supply.used) k.supply.now definition = .ok c)
    (hschema : k.typeSchema (normalized c).type = .ok schema)
    (hcheck : ∀ source, ∃ e, schema.check (normalized c).toJson source = .error e) :
    ∃ e, ((bootstrap definition).run k).1 = .error e := by
  have hbuiltin : k.builtinSchema (normalized c) = .ok schema := by
    rw [builtinSchema, hschema]
  rw [bootstrap, run_bind, normalize_run hc]
  dsimp only
  rw [run_bind, run_reading]
  obtain ⟨e, he⟩ := hcheck (linkSource { k with supply := k.supply.next })
  simp only [builtinSchema_supply, hbuiltin, bind, Except.bind, he]
  exact ⟨e, rfl⟩

theorem bind_refused {x : Action α} (g : α → Action β)
    (h : ∃ e, (x.run k).1 = .error e) : ∃ e, ((x >>= g).run k).1 = .error e := by
  obtain ⟨e, he⟩ := h
  rw [run_bind]
  cases hx : x.run k with
  | mk result l =>
      rw [hx] at he
      obtain rfl := he
      exact ⟨e, rfl⟩

theorem typeType_completes : ∃ c, Contract.ofPartial
    (empty.supply.next.id empty.supply.next.used) empty.supply.next.now
      Builtin.typeType = .ok c ∧ (normalized c).type = "type@1.0.0" :=
  ⟨_, rfl, rfl⟩

/-- Initializing fails over the type of types. -/
theorem boot_refused : ∃ e, (boot.run voided).1 = .error e := by
  have hfirst : ∃ e, ((bootstrap Builtin.typeType).run
      { voided with depth := voided.depth + 1 }).1 = .error e := by
    obtain ⟨announced, hvoided⟩ := voided_eq
    obtain ⟨c, hc, htype⟩ := typeType_completes
    rw [hvoided]
    have hrefuses : ∀ source, ∃ e, (Schema.bool false).check (normalized c).toJson source
        = .error e := fun source => ⟨_, rfl⟩
    refine bootstrap_refused hc ?_ hrefuses
    rw [htype]
    exact typeSchema_void rfl
  refine bind_refused _ ?_
  rw [(transaction_store _ _).1]
  refine bind_refused _ ?_
  rw [Builtin.coreTypes, List.mapM_cons]
  exact bind_refused _ hfirst

/-! ## Whatever fails -/

/-- What a kernel does for sessions. -/
inductive Served [TextLibrary] : {α : Type} → Action α → Prop where
  | insert (session : String) (definition : Json) :
      Served (insertFor session definition)
  | replace (session : String) (definition : Json) :
      Served (replaceFor session definition)
  | patch (session reference : String) (operations : List PatchOperation) :
      Served (patchFor session reference operations)
  | query (session : String) (query : Json) (options : QueryOptions) :
      Served (reading fun k => k.query session query options)
  | byId (session id : String) : Served (reading fun k => k.getById session id)
  | bySlug (session reference : String) :
      Served (reading fun k => k.getBySlug session reference)
  | stream (session : String) (query : Json) (options : QueryOptions) :
      Served (reading fun k => Feed.start k session query options)

theorem Served.undone [TextLibrary] {x : Action α} (h : Served x) : Undone x := by
  cases h with
  | insert session definition => exact .insertFor session definition
  | replace session definition => exact .replaceFor session definition
  | patch session reference operations => exact .patchFor session reference operations
  | query | byId | bySlug | stream => exact .reading _

/-- A transaction that goes on after a failed operation does as if ids and times
    had been used up in its place. -/
theorem transaction_attempt {γ : Type} {first : Action γ} {x : Action α} {a : γ}
    {used : Nat} (hfirst : first.run { k with depth := k.depth + 1 } = (.ok a, l))
    (he : x.run l = (.error e, l.spend used)) (rest : γ → Except Error α → Action β) :
    (transaction (first >>= fun a => attempt x >>= rest a)).run k
      = (transaction (first >>= fun a =>
          spending used >>= fun _ => rest a (.error e))).run k := by
  have hbody : (first >>= fun a => attempt x >>= rest a).run
      { k with depth := k.depth + 1 }
      = (first >>= fun a => spending used >>= fun _ => rest a (.error e)).run
        { k with depth := k.depth + 1 } := by
    rw [run_bind, run_bind, hfirst]
    show (rest a (x.run l).1).run (x.run l).2 = (rest a (.error e)).run (l.spend used)
    rw [he]
  simp only [ExceptT.run] at hbody
  simp only [transaction, ExceptT.run, hbody]

/-- An operation that fails does nothing but use up ids and times: contracts,
    links, pending and announced changes are as before.  Where sessions are
    served this holds inside transactions too, and a transaction that goes on
    after the failure does as if the operation had not been called. -/
theorem spent_of_failed [TextLibrary] (hk : Reachable k) :
    (k.depth = 0 → ∀ e, (boot.run k).1 = .error e → Spent k (boot.run k).2)
      ∧ (∀ (α : Type) (x : Action α) (e : Error), Served x → (x.run k).1 = .error e →
        Spent k (x.run k).2)
      ∧ ∀ (α γ : Type) (first : Action γ) (x : Action α) (a : γ) (l : Kernel)
        (e : Error), Program first → Served x →
        first.run { k with depth := k.depth + 1 } = (.ok a, l) →
        (x.run l).1 = .error e →
        ∃ used, ∀ (β : Type) (rest : γ → Except Error α → Action β),
          (transaction (first >>= fun a => attempt x >>= rest a)).run k
            = (transaction (first >>= fun a =>
                spending used >>= fun _ => rest a (.error e))).run k := by
  refine ⟨fun hdepth e he => spent_of_boot hdepth hk.settled he,
    fun α x e hx he => hx.undone k e hk.settled he, ?_⟩
  intro α γ first x a l e hprogram hx hfirst he
  have hl : Reachable l := by
    have := Reachable.ran hprogram hk.begun
    rwa [hfirst] at this
  obtain ⟨used, hused⟩ := hx.undone l e hl.settled he
  refine ⟨used, fun β rest => transaction_attempt hfirst ?_ rest⟩
  exact Prod.ext he hused

/-- An offer and the built-in contracts are refused without a trace, and a
    transaction goes on after the offer. -/
theorem spent_of_refused :
    Spent voided (boot.run voided).2
      ∧ Spent (guarded titled)
        ((insertFor "reader" (offer "card")).run (guarded titled)).2
      ∧ ∃ e used, ∀ (β : Type) (rest : Except Error Contract → Action β),
        (transaction (reading (fun _ => .ok ()) >>= fun _ =>
            attempt (insertFor "reader" (offer "card")) >>= rest)).run (guarded titled)
          = (transaction (reading (fun _ => .ok ()) >>= fun _ =>
            spending used >>= fun _ => rest (.error e))).run (guarded titled) := by
  have hdepth : voided.depth = 0 := depth_write _ _ _
  have hserved : Served (insertFor "reader" (offer "card")) := .insert _ _
  obtain ⟨bootError, hboot⟩ := boot_refused
  obtain ⟨outer, houter⟩ := offer_refused (guarded titled).depth
  obtain ⟨inner, hinner⟩ := offer_refused ((guarded titled).depth + 1)
  refine ⟨(spent_of_failed voided_reachable).1 hdepth bootError hboot,
    (spent_of_failed (guarded_reachable titled)).2.1 _ _ outer hserved houter, inner, ?_⟩
  obtain ⟨used, hused⟩ := (spent_of_failed (guarded_reachable titled)).2.2 _ _
    (reading fun _ => .ok ()) _ () _ inner (.reading _) hserved rfl hinner
  exact ⟨used, fun β rest => hused β fun _ => rest⟩

end Kernel

end LinkedContracts
