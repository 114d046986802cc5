import LinkedContracts.Proofs.Kernel.Undone
import LinkedContracts.Proofs.Store.Announced

/-! # The log of changes

    The changes that were announced, and after them the ones that wait for the
    end of a transaction, are the log of a kernel.  Whatever is done goes on with
    the log: it holds the changes that the writes announced which led to the store,
    in their order.  What a failed transaction wrote is neither in the one nor in
    the other. -/

namespace LinkedContracts

open Kernel

namespace Store

variable {s t u : Store} {c d : Contract} {pre post : List Change}

/-- Writes lead from one store to another and announce changes. -/
inductive Emits : Store → List Change → Store → Prop where
  | same {s t : Store} (h : SameContents s t) : Emits s [] t
  | written {s t u v : Store} {pre : List Change} {now : Instant} {mode : WriteMode}
      {c d : Contract} (h : Emits s pre t) (hw : t.write now mode c = .ok (d, u))
      (hsame : SameContents u v) : Emits s (pre ++ t.ensuing d) v

theorem Emits.refl (s : Store) : Emits s [] s := .same ⟨rfl, rfl⟩

theorem Emits.same_right (h : Emits s pre t) (htu : SameContents t u) : Emits s pre u := by
  cases h with
  | same hst => exact .same (hst.trans htu)
  | written hemits hw hsame => exact .written hemits hw (hsame.trans htu)

theorem Emits.trans (hst : Emits s pre t) (htu : Emits t post u) :
    Emits s (pre ++ post) u := by
  induction htu with
  | same h =>
      rw [List.append_nil]
      exact hst.same_right h
  | written _ hw hsame ih =>
      rw [← List.append_assoc]
      exact .written ih hw hsame

theorem Emits.sound (h : Emits s pre t) (hs : s.Sound) : t.Sound := by
  induction h with
  | same h => exact hs.of_rows h.1.symm
  | written _ hw hsame ih => exact (ih.write hw).of_rows hsame.1.symm

/-- Among the writes that led from one store to another, and announced changes, is
    one of which something holds: of the store that it found and of the contract
    that it wrote. -/
def Wrote (s : Store) (changes : List Change) (t : Store)
    (P : Store → Contract → Prop) : Prop :=
  ∃ pre post u v now mode c d, changes = pre ++ u.ensuing d ++ post
    ∧ Emits s pre u ∧ u.write now mode c = .ok (d, v) ∧ Emits v post t ∧ P u d

theorem Wrote.imp {changes : List Change} {P Q : Store → Contract → Prop}
    (h : Wrote s changes t P) (himp : ∀ u d, P u d → Q u d) : Wrote s changes t Q := by
  obtain ⟨pre, post, u, v, now, mode, c, d, hchanges, hpre, hw, hpost, hp⟩ := h
  exact ⟨pre, post, u, v, now, mode, c, d, hchanges, hpre, hw, hpost, himp u d hp⟩

/-- What a write keeps unless it breaks it, of the store and of the changes so far,
    all writes keep, or one of them is the first to break it. -/
theorem Emits.keeps_or {P : List Change → Store → Prop} {B : Store → Contract → Prop}
    {changes : List Change} (h : Emits s changes t) (hs : s.Sound) (hstart : P [] s)
    (hsame : ∀ {pre u v}, SameContents u v → P pre u → P pre v)
    (hstep : ∀ {pre u v now mode c d}, u.Sound → u.write now mode c = .ok (d, v) →
      P pre u → ¬B u d → P (pre ++ u.ensuing d) v) :
    P changes t ∨ ∃ pre post u v now mode c d, changes = pre ++ u.ensuing d ++ post
      ∧ Emits s pre u ∧ P pre u ∧ u.write now mode c = .ok (d, v) ∧ Emits v post t
      ∧ B u d := by
  induction h with
  | same h => exact .inl (hsame h hstart)
  | @written t u v pre now mode c d hemits hw hsame' ih =>
      rcases ih with hbefore | ⟨pre, post, w, x, now', mode', c', d', rfl, hpre, hbefore,
        hw', hpost, hbreaks⟩
      · by_cases hbreaks : B t d
        · exact .inr ⟨pre, [], t, u, now, mode, c, d, (List.append_nil _).symm, hemits,
            hbefore, hw, .same hsame', hbreaks⟩
        · exact .inl (hsame hsame' (hstep (hemits.sound hs) hw hbefore hbreaks))
      · refine .inr ⟨pre, post ++ t.ensuing d, w, x, now', mode', c', d', ?_, hpre, hbefore,
          hw', .written hpost hw hsame', hbreaks⟩
        rw [List.append_assoc _ post]

/-- What a write keeps of the store unless it breaks it, there is in the end, or one
    of the writes broke it. -/
theorem Emits.lasts {P : Store → Prop} {B : Store → Contract → Prop}
    {changes : List Change} (h : Emits s changes t) (hs : s.Sound) (hstart : P s)
    (hsame : ∀ {u v}, SameContents u v → P u → P v)
    (hstep : ∀ {u v now mode c d}, u.Sound → u.write now mode c = .ok (d, v) → P u →
      ¬B u d → P v) : P t ∨ Wrote s changes t fun u d => P u ∧ B u d := by
  refine (h.keeps_or (P := fun _ => P) (B := B) hs hstart hsame hstep).imp_right ?_
  rintro ⟨pre, post, u, v, now, mode, c, d, hchanges, hpre, hbefore, hw, hpost, hbreaks⟩
  exact ⟨pre, post, u, v, now, mode, c, d, hchanges, hpre, hw, hpost, hbefore, hbreaks⟩

end Store

namespace Kernel

open Stateful Store

variable {k l : Kernel} {c d : Contract} {mode : WriteMode}

/-- The changes so far, announced or not. -/
def log (k : Kernel) : List Change := k.announced ++ k.store.pending

/-- Outside transactions all changes were announced. -/
theorem Settled.log_eq (h : k.Settled) (hdepth : k.depth = 0) : k.log = k.announced := by
  rw [log, h hdepth, List.append_nil]

/-- A write that succeeds leaves the written store, with its changes announced or
    not. -/
theorem log_of_write (hw : (write mode c).run k = (.ok d, l)) :
    ∃ t pending, k.store.write k.supply.now mode c = .ok (d, t)
      ∧ l.store = { t with pending := pending }
      ∧ l.log = k.announced ++ t.pending := by
  rcases write_store mode c k with ⟨e, -, he, -⟩ | ⟨written, t, hwrite, hleft⟩
  · rw [hw] at he
    cases he
  obtain rfl : d = written := by
    have hok := hleft.1
    rw [hw] at hok
    exact Except.ok.inj hok
  have hinside : (writeInside mode c).run { k with depth := k.depth + 1 }
      = (.ok d, { k with depth := k.depth + 1, store := t, supply := k.supply.next }) := by
    simp only [writeInside, ExceptT.run, hwrite]
  rw [write_eq] at hw
  by_cases hdepth : 0 < k.depth
  · rw [transaction_inner _ hdepth, hinside] at hw
    obtain ⟨-, rfl⟩ := Prod.mk.inj hw
    exact ⟨t, t.pending, hwrite, rfl, rfl⟩
  · rw [transaction_outer _ (Nat.eq_zero_of_not_pos hdepth), hinside] at hw
    obtain ⟨-, rfl⟩ := Prod.mk.inj hw
    exact ⟨t, [], hwrite, rfl, List.append_nil _⟩

/-- A new contract that is no link is announced as inserted, and nothing else. -/
theorem log_of_new (hdepth : k.depth = 0) (hc : Store.canonical c = .ok c)
    (hnew : k.store.existing? c = none) (hlink : Link.ofContract? c = none)
    (mode : WriteMode) : ((write mode c).run k).2.log
      = k.log ++ [⟨c.id, .insert, none, some ((k.store.put c).image c)⟩] := by
  rw [write_new hdepth hc hnew hlink]
  simp [log]

/-! ## What goes on with the log -/

/-- What was done went on with the log, and inside a transaction it announced
    nothing yet. -/
structure GoesOn (k l : Kernel) : Prop where
  sound : l.store.Sound
  settled : l.Settled
  depth : l.depth = k.depth
  inside : 0 < k.depth → l.announced = k.announced
  emits : ∃ changes, l.log = k.log ++ changes ∧ Emits k.store changes l.store

/-- A kernel in order goes on with its log. -/
def Logs (k l : Kernel) : Prop := k.store.Sound → k.Settled → GoesOn k l

theorem logs_steady : Steady Logs where
  refl k hsound hsettled :=
    ⟨hsound, hsettled, rfl, fun _ => rfl, [], (List.append_nil _).symm, .refl _⟩
  trans := by
    intro k l m hkl hlm hsound hsettled
    have hl := hkl hsound hsettled
    have hm := hlm hl.sound hl.settled
    obtain ⟨pre, hpre, hemits⟩ := hl.emits
    obtain ⟨post, hpost, hemits'⟩ := hm.emits
    refine ⟨hm.sound, hm.settled, hm.depth.trans hl.depth, fun hdepth => ?_, pre ++ post, ?_,
      hemits.trans hemits'⟩
    · exact (hm.inside (hl.depth ▸ hdepth)).trans (hl.inside hdepth)
    · rw [hpost, hpre, List.append_assoc]

/-- A transaction goes on with the log as its body does, or not at all. -/
theorem logs_transaction {α : Type} {x : Action α}
    (hx : ∀ k : Kernel, 0 < k.depth → Logs k (x.run k).2) : Keeps Logs (transaction x) := by
  intro k hsound hsettled
  have hsettled' : ({ k with depth := k.depth + 1 } : Kernel).Settled :=
    fun hdepth => absurd hdepth (Nat.succ_ne_zero _)
  have hbody := hx { k with depth := k.depth + 1 } (Nat.succ_pos _) hsound hsettled'
  obtain ⟨changes, hlog, hemits⟩ := hbody.emits
  have hannounced := hbody.inside (Nat.succ_pos _)
  by_cases hdepth : 0 < k.depth
  · rw [transaction_inner x hdepth]
    exact ⟨hbody.sound, fun h => absurd h (Nat.ne_of_gt hdepth), rfl, fun _ => hannounced,
      changes, hlog, hemits⟩
  · have hzero : k.depth = 0 := Nat.eq_zero_of_not_pos hdepth
    rw [transaction_outer x hzero]
    split
    · refine ⟨hbody.sound.of_rows rfl, fun _ => rfl, rfl, fun h => absurd h hdepth, changes,
        ?_, hemits.same_right ⟨rfl, rfl⟩⟩
      exact (List.append_nil _).trans hlog
    · -- nothing was announced, and what waited is forgotten
      refine ⟨hsound.of_rows rfl, fun _ => rfl, rfl, fun h => absurd h hdepth, [], ?_,
        .same ⟨rfl, rfl⟩⟩
      rw [List.append_nil, hsettled.log_eq hzero]
      exact (List.append_nil _).trans hannounced

theorem logs_writeInside (mode : WriteMode) (c : Contract) (k : Kernel) (hdepth : 0 < k.depth) :
    Logs k ((writeInside mode c).run k).2 := by
  intro hsound hsettled
  simp only [writeInside, ExceptT.run]
  split
  · next written t hwrite =>
      have hlog : k.announced ++ t.pending = k.log ++ k.store.ensuing written := by
        rw [hsound.pending_of_write hwrite, ← List.append_assoc, log]
      exact ⟨hsound.write hwrite, fun h => absurd h (Nat.ne_of_gt hdepth), rfl, fun _ => rfl,
        _, hlog, .written (.refl _) hwrite ⟨rfl, rfl⟩⟩
  · exact logs_steady.refl k hsound hsettled

theorem logs_upheld : Upheld Logs where
  toSteady := logs_steady
  write mode c := by
    rw [write_eq]
    exact logs_transaction (logs_writeInside mode c)
  supplied k hsound hsettled :=
    ⟨hsound, hsettled, rfl, fun _ => rfl, [], (List.append_nil _).symm, .refl _⟩
  transaction hx := logs_transaction fun k _ => hx k

variable [TextLibrary]

/-- Every program goes on with the log. -/
theorem Program.logs {α : Type} {x : Action α} (hx : Program x) : Keeps Logs x :=
  hx.upholds logs_upheld fun _ _ hsound hsettled =>
    ⟨hsound, hsettled, rfl, fun _ => rfl, [], (List.append_nil _).symm, .refl _⟩

/-- A run goes on with the log. -/
theorem Onward.emits (h : Onward k l) (hk : Reachable k) :
    ∃ changes, l.log = k.log ++ changes ∧ Emits k.store changes l.store := by
  induction h with
  | here => exact ⟨[], (List.append_nil _).symm, .refl _⟩
  | ran hx h ih =>
      obtain ⟨pre, hpre, hemits⟩ := ih hk
      have hl := h.reachable hk
      obtain ⟨post, hpost, hemits'⟩ := (hx.logs _ hl.sound.store hl.settled).emits
      exact ⟨pre ++ post, by rw [hpost, hpre, List.append_assoc], hemits.trans hemits'⟩
  | begun _ ih => exact ih hk
  | reopened _ ih => exact ih hk

/-- The log of a reachable kernel holds the changes that led to its store from an
    empty one. -/
theorem Reachable.emits (h : Reachable k) : Emits {} k.log k.store := by
  induction h with
  | created h =>
      obtain ⟨-, rfl⟩ := create_ok h
      exact .refl _
  | ran hx hk ih =>
      obtain ⟨changes, hlog, hemits⟩ := (hx.logs _ hk.sound.store hk.settled).emits
      rw [hlog]
      exact ih.trans hemits
  | begun _ ih => exact ih
  | reopened _ ih => exact ih

end Kernel

end LinkedContracts
