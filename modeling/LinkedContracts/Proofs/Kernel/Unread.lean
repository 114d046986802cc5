import LinkedContracts.Proofs.Contract.WellFormed
import LinkedContracts.Proofs.Kernel.Lasting
import LinkedContracts.Proofs.Store.Stamps

/-! # Rows that cannot be read

    In a store to which contracts were written that can be held, at times that
    can be held, the rows that cannot be read are those that nest too deep.
    They are stored all the same, and missing wherever contracts are read.
    Every other contract is read as it was written, without its links; only a
    leap second that does not end a minute is read as the second after. -/

namespace LinkedContracts

namespace Store

variable {s t : Store} {c d e : Contract} {now : Instant} {mode : WriteMode} {id : String}

/-- Stores that contracts that can be held were written to, one after another. -/
inductive Built : Store → Prop where
  | empty : Built {}
  | written {s t : Store} {now : Instant} {mode : WriteMode} {c d : Contract}
      (h : Built s) (hc : c.WellFormed) (hnow : now.InRange)
      (hw : s.write now mode c = .ok (d, t)) : Built t

theorem Built.sound (h : s.Built) : s.Sound := by
  induction h with
  | empty => exact sound_empty
  | written _ _ _ hw ih => exact ih.write hw

/-! ## What a write stores -/

/-- Stored contracts that are read can be held. -/
theorem wellFormed_of_mem (h : e ∈ s.contracts) : e.WellFormed := by
  obtain ⟨p, -, hcontents⟩ := mem_contracts.mp h
  exact (Contract.wellFormed_of_reread (StoredRow.reread hcontents)).1

/-- What is written can be held, also in the place of another contract. -/
theorem Sound.wellFormed_of_write (h : s.Sound) (hc : c.WellFormed) (hnow : now.InRange)
    (hw : s.write now mode c = .ok (d, t)) : d.WellFormed := by
  obtain ⟨e, he, hd⟩ := write_ok hw
  obtain ⟨-, -, v, -, rfl⟩ := canonical_ok he
  rcases hd with ⟨found, hfound, -, rfl, -⟩ | ⟨-, rfl, -⟩
  -- in the place of another contract, it keeps when that one was created
  · have hold := wellFormed_of_mem (h.existing?_eq_some.mp hfound).1
    exact
      { requires := hc.requires
        capabilities := hc.capabilities
        data := hc.data
        sorted := hc.sorted
        linkedAt := hc.linkedAt
        createdAt := hold.createdAt
        updatedAt := by rintro _ ⟨⟩; exact hnow }
  · exact { hc with }

/-- A contract can be held with the stamp of a link. -/
theorem wellFormed_of_stamp? {l : Link} (he : e.WellFormed) (hl : l.createdAt.InRange)
    (hend : l.fromId = e.id ∨ l.toId = e.id) (h : l.stamp? e = some d) :
    d.WellFormed := by
  obtain ⟨name, hstamp⟩ := Link.stamp?_of_end hend
  obtain rfl := Option.some.inj (hstamp.symm.trans h)
  exact { he with
    sorted := he.sorted.insert name l.createdAt
    linkedAt := fun p hp => by
      rcases Dict.mem_of_mem_insert hp with rfl | hp
      · exact hl
      · exact he.linkedAt p hp }

/-- A row after a write was there before, or can be held. -/
theorem Sound.row_wellFormed (h : s.Sound) (hc : c.WellFormed) (hnow : now.InRange)
    (hw : s.write now mode c = .ok (d, t)) {row : StoredRow}
    (hrow : Dict.find? t.rows id = some row) :
    Dict.find? s.rows id = some row ∨ row.written.WellFormed := by
  have hd := h.wellFormed_of_write hc hnow hw
  cases h.fate_of_write hw id with
  | kept _ hfound => exact .inl (hfound.symm.trans hrow)
  | written _ hfound =>
      obtain rfl := Option.some.inj (hfound.symm.trans hrow)
      exact .inr hd
  | stamped e linkedAt he hid hlinks hfound =>
      subst hid
      obtain ⟨l, hl, hactive, hend⟩ := hlinks
      obtain ⟨stamped, hstamp, hmarked⟩ := h.marked_of_write hw hl hactive he hend
      obtain rfl := Option.some.inj (hmarked.symm.trans hrow)
      -- a link is as old as the contract that makes it
      have hsince : l.createdAt.InRange := by
        rw [(Link.of_ofContract? hl).2.2]
        exact hd.createdAt
      exact .inr (wellFormed_of_stamp? (wellFormed_of_mem he) hsince hend hstamp)
  | lost _ _ _ _ _ _ hgone => cases hgone.symm.trans hrow

/-- All that is stored can be held. -/
theorem Built.wellFormed (h : s.Built) : ∀ p ∈ s.rows, p.2.written.WellFormed := by
  induction h with
  | empty => exact fun p hp => absurd hp List.not_mem_nil
  | written hs hc hnow hw ih =>
      intro p hp
      have hrow := (hs.sound.write hw).sorted.find?_eq_some.mpr hp
      rcases hs.sound.row_wellFormed hc hnow hw hrow with hold | hp'
      · exact ih _ (Dict.mem_of_find? hold)
      · exact hp'

/-! ## What is read -/

/-- Contracts that do not nest too deep are all read. -/
theorem Built.contracts_eq (h : s.Built)
    (hrows : ∀ p ∈ s.rows, p.2.written.toRow.DoublesLast
      ∧ p.2.written.toRow.depth ≤ Json.maxDepth) :
    s.contracts = s.rows.map fun p => p.2.written.aligned := by
  have hread : ∀ p ∈ s.rows, p.2.contents = some p.2.written.aligned := by
    intro p hp
    obtain ⟨hdoubles, hdepth⟩ := hrows p hp
    rw [p.2.contents_eq, Contract.reread_eq_ite (h.wellFormed p hp) hdoubles,
      if_pos hdepth]
  rw [contracts]
  generalize s.rows = rows at hread
  clear hrows h
  induction rows with
  | nil => rfl
  | cons p rest ih =>
      obtain ⟨hp, hrest⟩ := List.forall_mem_cons.mp hread
      simp [hp, ih hrest]

/-- Every contract that a write stores is read back as it is, without its links,
    if and only if it does not nest too deep and its leap seconds end minutes;
    only one that nests too deep is not read at all. -/
theorem legible_of_write (h : s.Built) (hc : c.WellFormed) (hnow : now.InRange)
    (hw : s.write now mode c = .ok (d, t)) :
    (∀ e, e = d ∨ (∃ p ∈ t.rows, p.2.written = e) → e.toRow.DoublesLast →
        (e.reread = some { e with links := [] }
            ↔ e.toRow.depth ≤ Json.maxDepth ∧ e.Aligned)
          ∧ (e.reread = none ↔ Json.maxDepth < e.toRow.depth))
      ∧ ((∀ p ∈ t.rows, p.2.written.toRow.DoublesLast
            ∧ p.2.written.toRow.depth ≤ Json.maxDepth) →
          t.contracts = t.rows.map fun p => p.2.written.aligned) := by
  have ht : t.Built := .written h hc hnow hw
  refine ⟨fun e he hdoubles => ?_, ht.contracts_eq⟩
  have hwell : e.WellFormed := by
    rcases he with rfl | ⟨p, hp, rfl⟩
    · exact h.sound.wellFormed_of_write hc hnow hw
    · exact ht.wellFormed p hp
  exact ⟨Contract.reread_eq_some_iff hwell hdoubles,
    Contract.reread_eq_none_iff hwell hdoubles⟩

end Store

namespace Kernel

/-! ## A card that is read, and one that is not -/

/-- The card with an integer, a floating-point value and null in its data, and a
    leap second among its times. -/
def weighed : Contract :=
  { card with
    data := .object
      [("rates", .array [.number (.int (-1)), .number (.double .largest), .null])]
    linkedAt := [("is liked by", ⟨1483228799, 1500000000⟩)]
    updatedAt := some ⟨-1, 250000000⟩ }

theorem throughout_data_weighed {P : Json → Prop} (hnull : P .null)
    (hint : P (.number (.int (-1)))) (hdouble : P (.number (.double .largest)))
    (harray : ∀ items, P (.array items))
    (hobject : ∀ fields, Dict.Sorted fields → P (.object fields)) :
    weighed.data.Throughout P := by
  refine Json.throughout_object (hobject _ (List.pairwise_singleton _ _)) ?_
  refine List.forall_mem_singleton.mpr (Json.throughout_array (harray _) ?_)
  simp only [List.forall_mem_cons]
  exact ⟨Json.throughout_number hint, Json.throughout_number hdouble,
    Json.throughout_null hnull, nofun⟩

theorem wellFormed_weighed : weighed.WellFormed where
  requires := nofun
  capabilities := nofun
  data := throughout_data_weighed trivial ⟨by decide, by decide⟩ trivial
    (fun _ => trivial) fun _ hsorted => hsorted
  sorted := List.pairwise_singleton _ _
  linkedAt := List.forall_mem_singleton.mpr ⟨by decide, by decide, by decide⟩
  createdAt := ⟨by decide, by decide, by decide⟩
  updatedAt := by
    rintro _ ⟨⟩
    exact ⟨by decide, by decide, by decide⟩

theorem doublesLast_weighed : weighed.toRow.DoublesLast := by
  have hlargest : (Number.double .largest).retold = some (.double .largest) := by
    decide +kernel
  exact Contract.throughout_toRow trivial (fun _ => trivial) (fun _ => trivial)
    (fun _ => trivial) (fun _ _ => trivial) nofun nofun
    (throughout_data_weighed trivial trivial hlargest (fun _ => trivial)
      fun _ _ => trivial)
    (List.pairwise_singleton _ _)

theorem aligned_weighed : weighed.Aligned where
  linkedAt := List.forall_mem_singleton.mpr (.inr (by decide))
  createdAt := .inl (by decide)
  updatedAt := by
    rintro _ ⟨⟩
    exact .inl (by decide)

/-- The card is read back as it was written into an empty store. -/
theorem legible_of_write_weighed :
    ∃ t, ({} : Store).write ⟨0, 0⟩ .insert weighed = .ok (weighed, t)
      ∧ weighed.reread = some weighed := by
  have hwrite := Store.write_new (s := {}) (Store.canonical_first rfl rfl rfl rfl) rfl
    (ofContract?_of_card (c := weighed) rfl) ⟨0, 0⟩ .insert
  have hlegible := Store.legible_of_write .empty wellFormed_weighed
    ⟨by decide, by decide, by decide⟩ hwrite
  refine ⟨_, hwrite, ?_⟩
  exact (hlegible.1 weighed (.inl rfl) doublesLast_weighed).1.mpr
    ⟨by decide, aligned_weighed⟩

/-! ## A card that nests too deep -/

theorem throughout_nested {P : Json → Prop} (harray : ∀ items, P (.array items)) (n : Nat) :
    (nested n).Throughout P := by
  induction n with
  | zero => exact Json.throughout_array (harray _) nofun
  | succ n ih => exact Json.throughout_array (harray _) (List.forall_mem_singleton.mpr ih)

/-- A card that nests too deep is inserted, and not read any more. -/
theorem nested_unread :
    let deep := laden (nested Json.maxDepth)
    deep.WellFormed ∧ deep.toRow.DoublesLast ∧ deep.Aligned
      ∧ ∃ t, ({} : Store).write ⟨0, 0⟩ .insert deep = .ok (deep, t)
        ∧ deep.reread = none ∧ t.contract? deep.id = none ∧ t.contracts = [] := by
  have hwell : (laden (nested Json.maxDepth)).WellFormed :=
    { requires := nofun
      capabilities := nofun
      data := throughout_nested (fun _ => trivial) _
      sorted := Dict.sorted_nil
      linkedAt := nofun
      createdAt := ⟨by decide, by decide, by decide⟩
      updatedAt := nofun }
  have hdoubles : (laden (nested Json.maxDepth)).toRow.DoublesLast :=
    Contract.throughout_toRow trivial (fun _ => trivial) (fun _ => trivial)
      (fun _ => trivial) (fun _ _ => trivial) nofun nofun
      (throughout_nested (fun _ => trivial) _) Dict.sorted_nil
  have haligned : (laden (nested Json.maxDepth)).Aligned :=
    ⟨nofun, .inl (by decide), nofun⟩
  have hunread := reread_laden (retold_nested (Nat.sub_le Json.maxDepth 1))
  -- from here on the document counts only as one that is not read back
  generalize nested Json.maxDepth = data at hwell hdoubles haligned hunread
  have hwrite := Store.write_new (s := {}) (canonical_laden data) rfl
    (ofContract?_of_card (c := laden data) rfl) ⟨0, 0⟩ .insert
  refine ⟨hwell, hdoubles, haligned, _, hwrite, hunread, ?_, ?_⟩
  · exact (Store.contract?_put {} (laden data)).trans hunread
  · simp [Store.contracts, Store.put, Dict.insert, hunread]

end Kernel

end LinkedContracts
