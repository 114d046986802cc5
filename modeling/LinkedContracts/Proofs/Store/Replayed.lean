import LinkedContracts.Proofs.Store.Announced

/-! # Replaying changes

    Whoever keeps, for each id, what the last change of it showed, has the
    documents of all rows, as long as every change says of the row before it
    what the last one said of the row after it.

    A write goes on like that unless it strays: a row that cannot be read is
    lost without a change, a row that reads other than it was written is
    announced as it reads, and a link to itself is announced as the contract
    that it took the place of. -/

namespace LinkedContracts

/-! ## Replaying -/

/-- A document without its links. -/
def Json.bare : Json → Json
  | .object fields => .object (Dict.erase fields "links")
  | other => other

/-- Set what a change leaves of its id. -/
def Change.apply (table : Dict Json) (ch : Change) : Dict Json :=
  match ch.after with
  | some image => Dict.insert table ch.id image.bare
  | none => Dict.erase table ch.id

/-- What a log of changes leaves of each id. -/
def replay (log : List Change) : Dict Json := log.foldl Change.apply []

/-- What the last change of an id left of it. -/
def lastOf (log : List Change) (id : String) : Option Json :=
  ((log.reverse.find? fun ch => ch.id == id).bind Change.after).map Json.bare

/-- Whether a change goes on where the last change of its id ended. -/
structure Follows (log : List Change) (ch : Change) : Prop where
  /-- Before it was what the last change left. -/
  carries : ∀ before, ch.before = some before → lastOf log ch.id = some before.bare
  /-- The first one inserts. -/
  begins : lastOf log ch.id = none → ch.kind = .insert ∧ ch.before = none

/-- Whether changes go on where those before them ended, one after another. -/
def Chained (log changes : List Change) : Prop :=
  ∀ pre ch post, changes = pre ++ ch :: post → Follows (log ++ pre) ch

section

variable {log changes more : List Change} {ch : Change} {id : String}

theorem lastOf_concat : lastOf (log ++ [ch]) id
    = if ch.id = id then ch.after.map Json.bare else lastOf log id := by
  rw [lastOf, List.reverse_append]
  by_cases hid : ch.id = id
  · simp [hid]
  · simp [hid, lastOf]

theorem replay_concat : replay (log ++ [ch]) = ch.apply (replay log) := by
  rw [replay, List.foldl_append, ← replay]
  rfl

theorem sorted_apply {table : Dict Json} (h : Dict.Sorted table) (ch : Change) :
    Dict.Sorted (ch.apply table) := by
  rw [Change.apply]
  cases ch.after with
  | some image => exact h.insert _ _
  | none => exact h.erase _

theorem find?_apply {table : Dict Json} (h : Dict.Sorted table) (ch : Change) :
    Dict.find? (ch.apply table) id
      = if ch.id = id then ch.after.map Json.bare else Dict.find? table id := by
  rw [Change.apply]
  by_cases hid : ch.id = id
  · subst hid
    rw [if_pos rfl]
    cases ch.after with
    | some image => exact Dict.find?_insert_self _ _ _
    | none => exact h.find?_erase_self _
  · rw [if_neg hid]
    cases ch.after with
    | some image => exact Dict.find?_insert_of_ne _ _ hid
    | none => exact Dict.find?_erase_of_ne _ hid

theorem sorted_replay (log : List Change) : Dict.Sorted (replay log) := by
  have foldl (table : Dict Json) (h : Dict.Sorted table) :
      Dict.Sorted (log.foldl Change.apply table) := by
    induction log generalizing table with
    | nil => exact h
    | cons ch rest ih => exact ih _ (sorted_apply h ch)
  exact foldl [] Dict.sorted_nil

/-- What is replayed of an id is what its last change left. -/
theorem find?_replay (log : List Change) (id : String) :
    Dict.find? (replay log) id = lastOf log id := by
  have reversed (newest : List Change) :
      Dict.find? (replay newest.reverse) id = lastOf newest.reverse id := by
    induction newest with
    | nil => rfl
    | cons ch rest ih =>
        rw [List.reverse_cons, replay_concat, find?_apply (sorted_replay _), lastOf_concat, ih]
  simpa using reversed log.reverse

theorem chained_nil : Chained log [] := by
  intro pre ch post h
  simp at h

theorem chained_cons : Chained log (ch :: changes)
    ↔ Follows log ch ∧ Chained (log ++ [ch]) changes := by
  constructor
  · intro h
    refine ⟨?_, fun pre next post hsplit => ?_⟩
    · have hfirst := h [] ch changes rfl
      rwa [List.append_nil] at hfirst
    · have hrest := h (ch :: pre) next post (by rw [hsplit]; rfl)
      rwa [List.append_assoc]
  · rintro ⟨hfirst, hrest⟩ pre next post hsplit
    cases pre with
    | nil =>
        obtain ⟨rfl, -⟩ := List.cons.inj hsplit
        rwa [List.append_nil]
    | cons first pre =>
        obtain ⟨rfl, htail⟩ := List.cons.inj hsplit
        have := hrest pre next post htail
        rwa [List.append_assoc] at this

theorem chained_append : Chained log (changes ++ more)
    ↔ Chained log changes ∧ Chained (log ++ changes) more := by
  induction changes generalizing log with
  | nil => simp [chained_nil]
  | cons ch rest ih =>
      rw [List.cons_append, chained_cons, chained_cons, ih, and_assoc, List.append_assoc]
      rfl

/-- A change with something before it goes on where the last change ended if
    that is what was before it. -/
theorem follows_iff_of_before {before : Json} (hbefore : ch.before = some before) :
    Follows log ch ↔ lastOf log ch.id = some before.bare := by
  constructor
  · exact fun h => h.carries before hbefore
  · intro hlast
    refine ⟨fun other hother => ?_, fun hnone => ?_⟩
    · rw [← Option.some.inj (hbefore.symm.trans hother), hlast]
    · cases hnone.symm.trans hlast

end

namespace Store

variable {s t u : Store} {c d e : Contract} {l : Link} {id : String} {now : Instant}
  {mode : WriteMode} {log : List Change} {ends : List (Contract × Json)} {row : StoredRow}

/-- The documents of the rows of a store. -/
def table (s : Store) : Dict Json := Dict.mapValues (fun row => row.written.toRow) s.rows

/-- Whether a log of changes leaves what is in a store, and each change goes on
    where the last one of its id ended. -/
structure Replays (s : Store) (log : List Change) : Prop where
  table : replay log = s.table
  chained : Chained [] log

/-- How a write goes astray from the changes it announces. -/
inductive Strays (s : Store) (d : Contract) : Prop where
  /-- What cannot be read gives way to what is written. -/
  | displaced (id : String) (row : StoredRow) (hid : d.id ≠ id)
      (hrow : Dict.find? s.rows id = some row) (hslug : row.written.slug = d.slug)
      (hversion : row.written.version = d.version)
  /-- What is written takes the place of a contract, or connects one, that reads
      other than it was written. -/
  | misread (e : Contract) (row : StoredRow) (hrow : Dict.find? s.rows e.id = some row)
      (he : row.contents = some e)
      (hend : d.id = e.id
        ∨ ∃ l, Link.ofContract? d = some l ∧ (l.fromId = e.id ∨ l.toId = e.id))
      (hdiffers : e.toRow ≠ row.written.toRow)
  /-- A link to itself takes the place of a contract. -/
  | returned (l : Link) (e : Contract) (hl : Link.ofContract? d = some l)
      (hend : l.fromId = d.id ∨ l.toId = d.id) (he : s.contract? d.id = some e)
      (hdiffers : e.toRow ≠ d.toRow)

theorem bare_image (s : Store) (c : Contract) : (s.image c).bare = c.toRow := by
  have hfields : Dict.erase (Dict.insert c.rowFields "links"
      (Contract.linksJson (s.linksOf c.id))) "links" = c.rowFields := rfl
  exact congrArg Json.object hfields

/-- A log leaves what is in a store if its last changes do. -/
theorem Sound.replay_eq_table (h : s.Sound) : replay log = s.table
    ↔ ∀ id, lastOf log id = (Dict.find? s.rows id).map fun row => row.written.toRow := by
  have hfound (id : String) : Dict.find? s.table id
      = (Dict.find? s.rows id).map fun row => row.written.toRow := Dict.find?_mapValues _ _ _
  have hsorted : Dict.Sorted s.table := by
    have hkeys : Dict.keys s.table = Dict.keys s.rows := by
      simp [Dict.keys, table, Dict.mapValues]
    rw [Dict.Sorted, hkeys]
    exact h.sorted
  constructor
  · intro hreplay id
    rw [← find?_replay, hreplay, hfound]
  · intro hlast
    refine (sorted_replay log).eq_of_find? hsorted fun id => ?_
    rw [find?_replay, hlast, hfound]

theorem Replays.lastOf_eq (hlog : s.Replays log) (h : s.Sound)
    (hrow : Dict.find? s.rows id = some row) : lastOf log id = some row.written.toRow := by
  rw [h.replay_eq_table.mp hlog.table, hrow]
  rfl

/-! ## Contracts that a link connects -/

@[simp] theorem id_marking (l : Link) (u : Store) (p : Contract × Json) :
    (marking l u p).id = p.1.id := rfl

theorem after_marking (l : Link) (u : Store) (p : Contract × Json) :
    (marking l u p).after.map Json.bare = some (l.marked p.1).toRow :=
  congrArg some (bare_image u _)

theorem follows_marking {p : Contract × Json} :
    Follows log (marking l u p) ↔ lastOf log p.1.id = some p.2.bare :=
  follows_iff_of_before rfl

theorem lastOf_stampAll_apart (hends : ∀ p ∈ ends, p.1.id ≠ id) :
    lastOf (log ++ (stampAll l u ends).2) id = lastOf log id := by
  induction ends generalizing u log with
  | nil => rw [stampAll, List.append_nil]
  | cons p rest ih =>
      obtain ⟨hp, hrest⟩ := List.forall_mem_cons.mp hends
      rw [stampAll_cons, List.append_cons, ih hrest, lastOf_concat, if_neg]
      exact hp

theorem lastOf_stampAll_end (hends : (ends.map fun p => p.1.id).Nodup)
    {p : Contract × Json} (hp : p ∈ ends) :
    lastOf (log ++ (stampAll l u ends).2) p.1.id = some (l.marked p.1).toRow := by
  induction ends generalizing u log with
  | nil => cases hp
  | cons q rest ih =>
      obtain ⟨hq, hrest⟩ := List.nodup_cons.mp hends
      rw [stampAll_cons, List.append_cons]
      rcases List.mem_cons.mp hp with rfl | hp
      · rw [lastOf_stampAll_apart, lastOf_concat, id_marking, if_pos rfl, after_marking]
        · exact fun r hr hsame => hq (List.mem_map.mpr ⟨r, hr, hsame⟩)
      · exact ih hrest hp

/-- The contracts that a link connects go on one by one, for no two of them have
    the same id. -/
theorem chained_stampAll (hends : (ends.map fun p => p.1.id).Nodup) :
    Chained log (stampAll l u ends).2 ↔ ∀ p ∈ ends, lastOf log p.1.id = some p.2.bare := by
  induction ends generalizing u log with
  | nil => simp [stampAll, chained_nil]
  | cons p rest ih =>
      obtain ⟨hp, hrest⟩ := List.nodup_cons.mp hends
      rw [stampAll_cons, chained_cons, follows_marking, ih hrest, List.forall_mem_cons]
      refine and_congr_right fun _ => forall₂_congr fun q hq => ?_
      rw [lastOf_concat, if_neg]
      exact fun hsame => hp (List.mem_map.mpr ⟨q, hq, hsame.symm⟩)

/-- A link has each of its ends once. -/
theorem Sound.nodup_endpoints (h : s.Sound) (l : Link) :
    ((s.endpoints (some l)).map fun p => p.1.id).Nodup := by
  have hids : (s.endpoints (some l)).map (fun p => p.1.id)
      = (endpointIds l).filter fun id => (s.contract? id).isSome := by
    rw [Store.endpoints, List.map_filterMap, ← List.filterMap_eq_filter]
    refine List.filterMap_congr fun id _ => ?_
    cases hc : s.contract? id with
    | none => simp [Option.guard, hc]
    | some c => simp [Option.guard, hc, (h.contract?_eq_some.mp hc).2]
  have hnodup : (endpointIds l).Nodup := by
    rw [endpointIds]
    split
    · simp
    · next hne => simp [Ne.symm hne]
  rw [hids]
  exact hnodup.filter _

theorem image_of_endpoints {p : Contract × Json} (hp : p ∈ s.endpoints (some l)) :
    p.2 = s.image p.1 := by
  obtain ⟨id, -, hend⟩ := List.mem_filterMap.mp hp
  obtain ⟨c, -, rfl⟩ := Option.map_eq_some_iff.mp hend
  rfl

/-! ## What a write leaves -/

/-- The change that announces what is written. -/
def writing (s t : Store) (d : Contract) : Change :=
  ⟨d.id, if (s.contract? d.id).isSome then .update else .insert,
    (s.contract? d.id).map s.image, some (t.image d)⟩

theorem follows_writing : Follows log (writing s t d)
    ↔ ∀ found, s.contract? d.id = some found → lastOf log d.id = some found.toRow := by
  cases hfound : s.contract? d.id with
  | none =>
      have hbefore : (writing s t d).before = none := by simp [writing, hfound]
      have hkind : (writing s t d).kind = .insert := by simp [writing, hfound]
      refine iff_of_true ⟨fun before h => ?_, fun _ => ⟨hkind, hbefore⟩⟩ nofun
      cases hbefore.symm.trans h
  | some found =>
      have hbefore : (writing s t d).before = some (s.image found) := by simp [writing, hfound]
      rw [follows_iff_of_before hbefore, bare_image]
      simp [writing]

theorem lastOf_writing : lastOf (log ++ [writing s t d]) id
    = if d.id = id then some d.toRow else lastOf log id := by
  have hafter : (writing s t d).after.map Json.bare = some d.toRow :=
    congrArg some (bare_image t d)
  rw [lastOf_concat, hafter]
  rfl

section

variable (h : s.Sound) (hw : s.write now mode c = .ok (d, t))

include h hw

/-- What is no link is announced and nothing else. -/
theorem Sound.ensuing_of_other (hl : Link.ofContract? d = none) :
    s.ensuing d = [writing s t d] := by
  have hover := h.writeOver_of_write hw
  subst hover
  rw [ensuing, writing, Store.writeOver, hl]
  rfl

/-- A write goes on with a log if what it takes the place of, and what it connects,
    is as the log left it; what has the id of a link is as the link left it. -/
theorem Sound.chained_ensuing : Chained log (s.ensuing d)
    ↔ (∀ found, s.contract? d.id = some found → lastOf log d.id = some found.toRow)
      ∧ ∀ l, Link.ofContract? d = some l → ∀ e ∈ s.contracts,
        l.fromId = e.id ∨ l.toId = e.id →
          (if d.id = e.id then some d.toRow else lastOf log e.id) = some e.toRow := by
  cases hl : Link.ofContract? d with
  | none =>
      rw [h.ensuing_of_other hw hl, chained_cons, follows_writing]
      simp [chained_nil]
  | some l =>
      rw [h.ensuing_of_link hw hl, ← writing, chained_cons, follows_writing,
        chained_stampAll (h.nodup_endpoints l)]
      refine and_congr_right fun _ => ?_
      simp only [lastOf_writing]
      constructor
      · rintro hends l' ⟨⟩ e he hend
        rw [hends _ (h.mem_endpoints_of_end he hend), bare_image]
      · intro hends p hp
        obtain ⟨he, hend⟩ := h.mem_endpoints hp
        rw [image_of_endpoints hp, bare_image, hends l rfl p.1 he hend]

/-- What a write that goes on with a log takes the place of, or connects, is as
    the log left it. -/
theorem Sound.lastOf_of_chained (hchained : Chained log (s.ensuing d))
    (he : e ∈ s.contracts) (hend : d.id = e.id
      ∨ ∃ l, Link.ofContract? d = some l ∧ (l.fromId = e.id ∨ l.toId = e.id)) :
    lastOf log e.id = some e.toRow := by
  obtain ⟨hwritten, hends⟩ := (h.chained_ensuing hw).mp hchained
  by_cases hid : d.id = e.id
  · rw [← hid]
    exact hwritten e (h.contract?_eq_some.mpr ⟨he, hid.symm⟩)
  · obtain ⟨l, hl, hend⟩ := hend.resolve_left hid
    have hlast := hends l hl e he hend
    rwa [if_neg hid] at hlast

/-- What the written link does not connect is left as it was, and what is written
    as it is. -/
theorem Sound.lastOf_ensuing_apart (hapart : ∀ l, Link.ofContract? d = some l →
      ∀ e ∈ s.contracts, l.fromId = e.id ∨ l.toId = e.id → e.id ≠ id) :
    lastOf (log ++ s.ensuing d) id = if d.id = id then some d.toRow else lastOf log id := by
  cases hl : Link.ofContract? d with
  | none => rw [h.ensuing_of_other hw hl, lastOf_writing]
  | some l =>
      rw [h.ensuing_of_link hw hl, ← writing, List.append_cons, lastOf_stampAll_apart,
        lastOf_writing]
      intro p hp
      obtain ⟨he, hend⟩ := h.mem_endpoints hp
      exact hapart l hl p.1 he hend

/-- A contract that the written link connects is left with the stamp of the
    link. -/
theorem Sound.lastOf_ensuing_end (hl : Link.ofContract? d = some l) (he : e ∈ s.contracts)
    (hend : l.fromId = e.id ∨ l.toId = e.id) :
    lastOf (log ++ s.ensuing d) e.id = some (l.marked e).toRow := by
  rw [h.ensuing_of_link hw hl, List.append_cons]
  exact lastOf_stampAll_end (h.nodup_endpoints l) (h.mem_endpoints_of_end he hend)

/-! ## Writes that do not stray -/

/-- Under the id of a contract that a link connects is the contract as it is
    announced. -/
theorem Sound.row_of_end (hkeeps : ¬s.Strays d) (hl : Link.ofContract? d = some l)
    (he : e ∈ s.contracts) (hend : l.fromId = e.id ∨ l.toId = e.id) :
    ∃ row, Dict.find? t.rows e.id = some row ∧ row.written.toRow = (l.marked e).toRow := by
  cases hactive : l.active with
  | true =>
      obtain ⟨stamped, hstamp, hrow⟩ := h.marked_of_write hw hl hactive he hend
      exact ⟨_, hrow, by rw [Link.marked_of_stamp? hactive hstamp]; rfl⟩
  | false =>
      -- an inactive link puts no stamp, and leaves what it took the place of gone
      have hunlinked : ¬Links d e.id := by
        rintro ⟨l', hl', hactive', -⟩
        obtain rfl := Option.some.inj (hl.symm.trans hl')
        cases hactive.symm.trans hactive'
      rw [Link.marked_of_inactive hactive, h.find?_of_write_put hw (.inl hunlinked)]
      by_cases hid : e.id = d.id
      · have hthere : s.contract? d.id = some e := h.contract?_eq_some.mpr ⟨he, hid⟩
        refine ⟨_, hid ▸ find?_put_self s d, Decidable.byContradiction fun hdiffers => ?_⟩
        exact hkeeps (.returned l e hl (hid ▸ hend) hthere (Ne.symm hdiffers))
      · obtain ⟨row, hcontents, hrow, hkept⟩ := h.row_put hw he hid
        refine ⟨row, hkept, Decidable.byContradiction fun hdiffers => ?_⟩
        exact hkeeps (.misread e row hrow hcontents (.inr ⟨l, hl, hend⟩) (Ne.symm hdiffers))

/-- Under other ids is what was there. -/
theorem Sound.find?_of_apart (hkeeps : ¬s.Strays d)
    (hapart : ∀ l, Link.ofContract? d = some l → ∀ e ∈ s.contracts,
      l.fromId = e.id ∨ l.toId = e.id → e.id ≠ id) :
    Dict.find? t.rows id
      = if d.id = id then some (.ofContract d) else Dict.find? s.rows id := by
  have hother : ¬Links d id ∨ s.contract? id = none := by
    by_cases hlinks : Links d id
    · obtain ⟨l, hl, -, hend⟩ := hlinks
      refine .inr (Option.eq_none_iff_forall_ne_some.mpr fun e he => ?_)
      obtain ⟨hmem, rfl⟩ := h.contract?_eq_some.mp he
      exact hapart l hl e hmem hend rfl
    · exact .inl hlinks
  rw [h.find?_of_write_put hw hother]
  by_cases hid : d.id = id
  · subst hid
    rw [if_pos rfl, find?_put_self]
  · rw [if_neg hid]
    cases hrow : Dict.find? s.rows id with
    | none => rw [find?_put_of_ne h.sorted (Ne.symm hid), hrow, Option.filter_none]
    | some row =>
        exact find?_put_keeps h.sorted hrow (Ne.symm hid) fun ⟨hslug, hversion⟩ =>
          hkeeps (.displaced id row hid hrow hslug hversion)

section

variable (hlog : s.Replays log)

include hlog

/-- Under an id is what the changes leave of it. -/
theorem Sound.lastOf_ensuing (hkeeps : ¬s.Strays d) (id : String) :
    lastOf (log ++ s.ensuing d) id
      = (Dict.find? t.rows id).map fun row => row.written.toRow := by
  by_cases hends : ∃ l, Link.ofContract? d = some l ∧ ∃ e ∈ s.contracts,
      (l.fromId = e.id ∨ l.toId = e.id) ∧ e.id = id
  · obtain ⟨l, hl, e, he, hend, rfl⟩ := hends
    obtain ⟨row, hrow, hsame⟩ := h.row_of_end hw hkeeps hl he hend
    rw [h.lastOf_ensuing_end hw hl he hend, hrow, Option.map_some, hsame]
  · have hapart : ∀ l, Link.ofContract? d = some l → ∀ e ∈ s.contracts,
        l.fromId = e.id ∨ l.toId = e.id → e.id ≠ id :=
      fun l hl e he hend hid => hends ⟨l, hl, e, he, hend, hid⟩
    rw [h.lastOf_ensuing_apart hw hapart, h.find?_of_apart hw hkeeps hapart,
      h.replay_eq_table.mp hlog.table]
    split <;> rfl

/-- The changes go on where those before them ended. -/
theorem Sound.chained_of_keeps (hkeeps : ¬s.Strays d) : Chained log (s.ensuing d) := by
  have hread {e : Contract} (he : e ∈ s.contracts) (hend : d.id = e.id
      ∨ ∃ l, Link.ofContract? d = some l ∧ (l.fromId = e.id ∨ l.toId = e.id)) :
      lastOf log e.id = some e.toRow := by
    obtain ⟨row, hrow, hcontents⟩ := h.row_of_mem he
    rw [hlog.lastOf_eq h hrow]
    refine congrArg some (Decidable.byContradiction fun hdiffers => ?_)
    exact hkeeps (.misread e row hrow hcontents hend (Ne.symm hdiffers))
  refine (h.chained_ensuing hw).mpr ⟨fun found hfound => ?_, fun l hl e he hend => ?_⟩
  · obtain ⟨he, hid⟩ := h.contract?_eq_some.mp hfound
    rw [← hid]
    exact hread he (.inl hid.symm)
  · split
    · next hid =>
        have hthere : s.contract? d.id = some e := h.contract?_eq_some.mpr ⟨he, hid.symm⟩
        refine congrArg some (Decidable.byContradiction fun hdiffers => ?_)
        exact hkeeps (.returned l e hl (hid ▸ hend) hthere (Ne.symm hdiffers))
    · exact hread he (.inr ⟨l, hl, hend⟩)

/-- A log of what is in a store goes on to be one when something is written,
    exactly if the write does not stray. -/
theorem Sound.replays_iff : t.Replays (log ++ s.ensuing d) ↔ ¬s.Strays d := by
  constructor
  · intro hafter
    have hchained := (chained_append.mp hafter.chained).2
    rw [List.nil_append] at hchained
    rintro (⟨id, row, hid, hrow, hslug, hversion⟩ | ⟨e, row, hrow, hcontents, hend, hdiffers⟩ |
      ⟨l, e, hl, hend, hthere, hdiffers⟩)
    · -- the changes leave the row, and the write does not
      obtain ⟨hunread, hgone⟩ := h.gone_of_displaced hw hrow hid hslug hversion
      have hnone := contract?_of_unread hrow hunread
      have hleft := (h.write hw).replay_eq_table.mp hafter.table id
      rw [hgone, h.lastOf_ensuing_apart hw, if_neg hid, hlog.lastOf_eq h hrow] at hleft
      · cases hleft
      · rintro l - e he - rfl
        cases hnone.symm.trans (h.contract?_eq_some.mpr ⟨he, rfl⟩)
    · have he : e ∈ s.contracts := mem_contracts.mpr ⟨_, Dict.mem_of_find? hrow, hcontents⟩
      have hlast := h.lastOf_of_chained hw hchained he hend
      rw [hlog.lastOf_eq h hrow] at hlast
      exact hdiffers (Option.some.inj hlast).symm
    · obtain ⟨he, hid⟩ := h.contract?_eq_some.mp hthere
      have hlast := ((h.chained_ensuing hw).mp hchained).2 l hl e he (hid ▸ hend)
      rw [if_pos hid.symm] at hlast
      exact hdiffers (Option.some.inj hlast).symm
  · intro hkeeps
    refine ⟨?_, chained_append.mpr ⟨hlog.chained, ?_⟩⟩
    · exact (h.write hw).replay_eq_table.mpr (h.lastOf_ensuing hw hlog hkeeps)
    · rw [List.nil_append]
      exact h.chained_of_keeps hw hlog hkeeps

end

end

end Store

end LinkedContracts
