import LinkedContracts.Proofs.Kernel.Logged
import LinkedContracts.Proofs.Kernel.Readback
import LinkedContracts.Proofs.Store.Replayed

/-! # The log of a store

    Outside transactions all changes of a kernel were announced, in the order of
    the writes.  Replayed, they are what is in the store, unless a write on the
    way strayed; up to the first one that did, the log and the store went
    together. -/

namespace LinkedContracts

namespace Store

variable {s t : Store} {log changes : List Change}

theorem replays_empty : Replays {} [] := ⟨rfl, chained_nil⟩

/-- A new contract does not stray where all rows are read as they were written and
    none has its slug and version. -/
theorem not_strays_of_new {d : Contract}
    (hread : ∀ p ∈ s.rows, p.2.contents = some p.2.written
      ∧ ¬(p.2.written.slug = d.slug ∧ p.2.written.version = d.version))
    (hnone : s.contract? d.id = none) : ¬s.Strays d := by
  rintro (⟨_, _, _, hrow, hslug, hversion⟩ | ⟨e, row, hrow, he, -, hdiffers⟩
    | ⟨_, _, _, _, hthere, _⟩)
  · exact (hread _ (Dict.mem_of_find? hrow)).2 ⟨hslug, hversion⟩
  · have hsame := Option.some.inj (he.symm.trans (hread _ (Dict.mem_of_find? hrow)).1)
    exact hdiffers (congrArg Contract.toRow hsame)
  · cases hnone.symm.trans hthere

theorem Replays.of_rows (h : s.Replays log) (hrows : t.rows = s.rows) : t.Replays log :=
  ⟨by rw [h.table, Store.table, Store.table, hrows], h.chained⟩

/-- The changes that are announced go with the store that they lead to, or there
    is a first write among them that strays. -/
theorem Emits.replays (h : Emits s changes t) (hs : s.Sound) (hlog : s.Replays log) :
    t.Replays (log ++ changes)
      ∨ ∃ pre post u v now mode c d, changes = pre ++ u.ensuing d ++ post
        ∧ Emits s pre u ∧ u.Replays (log ++ pre) ∧ u.write now mode c = .ok (d, v)
        ∧ Emits v post t ∧ u.Strays d := by
  refine h.keeps_or (P := fun pre u => u.Replays (log ++ pre)) hs ?_ ?_ ?_
  · rwa [List.append_nil]
  · exact fun hsame hbefore => hbefore.of_rows hsame.1.symm
  · intro pre u v now mode c d hu hw hbefore hkept
    rw [← List.append_assoc]
    exact (hu.replays_iff hw hbefore).mpr hkept

end Store

namespace Kernel

open Store

variable {k : Kernel}

/-- Replaying what was announced rebuilds the store, and each change goes on
    where the last one of its id ended, unless a write strayed.  From a kernel
    where it is so, a write keeps it so exactly if it does not stray. -/
theorem replays_log [TextLibrary] (hk : Reachable k) :
    (k.depth = 0 → k.announced = k.log)
      ∧ (k.store.Replays k.log
        ∨ ∃ pre post s t now mode c d, k.log = pre ++ s.ensuing d ++ post
          ∧ Emits {} pre s ∧ s.Replays pre ∧ s.write now mode c = .ok (d, t)
          ∧ Emits t post k.store ∧ s.Strays d)
      ∧ (k.store.Replays k.log → ∀ mode c d l, (write mode c).run k = (.ok d, l) →
        (l.store.Replays l.log ↔ ¬k.store.Strays d)) := by
  have hsound := hk.sound.store
  refine ⟨fun hdepth => (hk.settled.log_eq hdepth).symm, ?_, fun hlog mode c d l hw => ?_⟩
  · exact hk.emits.replays sound_empty replays_empty
  · obtain ⟨t, pending, hwrite, hstore, hafter⟩ := log_of_write hw
    rw [hsound.pending_of_write hwrite, ← List.append_assoc, ← log] at hafter
    rw [hafter, ← hsound.replays_iff hwrite hlog, hstore]
    exact ⟨fun h => h.of_rows rfl, fun h => h.of_rows rfl⟩

/-- The reader is written first, and then the card. -/
theorem run_guarded (read : Json) : ∃ first,
    (write .insert (reader read)).run empty = (.ok (reader read), first)
      ∧ first.store.rows = [("reader", .ofContract (reader read))]
      ∧ (write .insert card).run first = (.ok card, guarded read) := by
  have hfirst := write_new rfl (canonical_reader read) rfl (ofContract?_reader read) .insert
    (k := empty)
  refine ⟨_, hfirst, rfl, ?_⟩
  rw [guarded, Stateful.run_bind, hfirst]
  dsimp only
  rw [write_new rfl canonical_card rfl rfl]

/-- After the reader, the card and the link between them were written, what was
    announced is replayed to them, the reader and the card with their stamps. -/
theorem replays_log_liking : ∃ after,
    (write .insert liking).run (guarded anonymous) = (.ok liking, after)
      ∧ after.store.Replays after.announced := by
  obtain ⟨first, hreader, hrows, hcard⟩ := run_guarded anonymous
  obtain ⟨after, hliking⟩ : ∃ after,
      (write .insert liking).run (guarded anonymous) = (.ok liking, after) := by
    obtain ⟨t, hwrite⟩ := write_liking
    exact ⟨_, write_run (depth_guarded anonymous) hwrite⟩
  have hempty : Reachable empty := .created (rfl : create {} empty.supply = .ok empty)
  have hfirst : Reachable first := by
    have hran : Reachable ((write .insert (reader anonymous)).run empty).2 :=
      .ran (.write _ _) hempty
    rwa [hreader] at hran
  have hran : Reachable after ∧ after.depth = 0 := by
    have hran : Reachable ((write .insert liking).run (guarded anonymous)).2 :=
      .ran (.write _ _) (guarded_reachable anonymous)
    have hdepth := depth_write .insert liking (guarded anonymous)
    rw [hliking] at hran hdepth
    exact ⟨hran, hdepth.trans (depth_guarded anonymous)⟩
  -- each of the three is new beside contracts that are read as they were written
  have hnew : ¬empty.store.Strays (reader anonymous) :=
    not_strays_of_new (fun p hp => absurd hp List.not_mem_nil) rfl
  have hnew' : ¬first.store.Strays card := by
    refine not_strays_of_new ?_ ?_
    · rw [hrows]
      intro p hp
      obtain rfl := List.mem_singleton.mp hp
      exact ⟨by rw [StoredRow.contents_ofContract, reread_anonymous]; rfl, by decide⟩
    · rw [contract?, hrows]
      rfl
  have hnew'' : ¬(guarded anonymous).store.Strays liking := by
    refine not_strays_of_new ?_ (contract?_liking anonymous)
    rw [rows_guarded]
    intro p hp
    simp only [List.mem_cons, List.not_mem_nil, or_false] at hp
    rcases hp with rfl | rfl
    · exact ⟨by rw [StoredRow.contents_ofContract, reread_card]; rfl, by decide⟩
    · exact ⟨by rw [StoredRow.contents_ofContract, reread_anonymous]; rfl, by decide⟩
  have hlog := ((replays_log hempty).2.2 replays_empty _ _ _ _ hreader).mpr hnew
  have hlog' := ((replays_log hfirst).2.2 hlog _ _ _ _ hcard).mpr hnew'
  have hlog'' := ((replays_log (guarded_reachable anonymous)).2.2 hlog' _ _ _ _
    hliking).mpr hnew''
  refine ⟨after, hliking, ?_⟩
  rw [(replays_log hran.1).1 hran.2]
  exact hlog''

/-! ## A link to itself -/

/-- A link to itself that is written under another name is announced with the new
    name first, and then as if it had had the old one all the time. -/
theorem mirror_unchained :
    let after := (write .upsert (mirror "loves")).run mirrored
    Reachable after.2 ∧ after.2.depth = 0 ∧ (∃ d, after.1 = .ok d)
      ∧ ¬Chained [] after.2.announced := by
  have hdepth : mirrored.depth = 0 := depth_write _ _ _
  have hsound := mirrored_reachable.sound.store
  obtain ⟨d, t, hwrite, hid, hname, hlink, -, -⟩ := write_mirror
  refine ⟨.ran (.write _ _) mirrored_reachable, (depth_write _ _ _).trans hdepth, ?_, ?_⟩
  · exact ⟨d, by rw [write_run hdepth hwrite]⟩
  · rw [write_run hdepth hwrite]
    dsimp only
    rw [hsound.pending_of_write hwrite, ← List.append_assoc, chained_append]
    rintro ⟨-, hchained⟩
    obtain ⟨-, hends⟩ := (hsound.chained_ensuing hwrite).mp hchained
    obtain ⟨hmem, hsame⟩ := hsound.contract?_eq_some.mp contract?_mirrored
    -- after the new link, the old one is announced as what was there before
    have hback := hends _ hlink _ hmem (.inl hsame.symm)
    rw [if_pos (hid.trans hsame.symm)] at hback
    have hshown (c : Contract) : c.toRow.field? "name"
        = some (Contract.optional .string c.name) := rfl
    have hfield := congrArg (fun row => row.field? "name") (Option.some.inj hback)
    rw [hshown, hshown, hname] at hfield
    exact absurd (Json.string.inj (Option.some.inj hfield)) (by decide : "loves" ≠ "likes")

end Kernel

end LinkedContracts
