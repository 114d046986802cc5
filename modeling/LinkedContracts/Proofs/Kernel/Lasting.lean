import LinkedContracts.Proofs.Kernel.Logged
import LinkedContracts.Proofs.Kernel.Referred

/-! # Identities that last

    However a store was written to, no two of its rows share an id, or a slug
    and a version.  What is kept has an id and a slug, its version in canonical
    form and no links, and a reference finds what it names.

    A write takes no row away but one that cannot be read.  Such a row is not
    found by its slug and version, so that a contract with the same ones is
    written as a new one, in its place.  What is under an id lasts unless the log
    of the run has the change of such a write. -/

namespace LinkedContracts

open Stateful

theorem Json.retoldFields_eq_none {depth : Nat} {fields : List (String × Json)}
    {key : String} {x : Json} (hmem : (key, x) ∈ fields)
    (hx : retold depth x = none) : retoldFields depth fields = none := by
  induction fields with
  | nil => cases hmem
  | cons p rest ih =>
      rcases List.mem_cons.mp hmem with rfl | hmem
      · simp [retoldFields, hx]
      · simp [retoldFields, ih hmem]

namespace Store

open Kernel

variable {s t u : Store} {c d : Contract} {id : String}

/-! ## What tells contracts apart -/

/-- The contracts of a store are told apart, and found by what tells them
    apart. -/
structure Identified (s : Store) : Prop where
  id : ∀ p ∈ s.rows, ∀ q ∈ s.rows, p.2.written.id = q.2.written.id → p = q
  version : ∀ p ∈ s.rows, ∀ q ∈ s.rows, p.2.written.slug = q.2.written.slug →
    Version.parse? p.2.written.version = Version.parse? q.2.written.version → p = q
  /-- What is kept, as it was written and as it is read back. -/
  kept : ∀ p ∈ s.rows, p.2.written.Kept ∧ ∀ c, p.2.contents = some c →
    c.Kept ∧ Contract.SameIdentity p.2.written c
  exact : ∀ slug text v, Version.parse? text = some v → ∀ c,
    s.find? slug (.exact v) = some c ↔
      c ∈ s.contracts ∧ c.slug = slug ∧ Version.parse? c.version = some v
  latest : ∀ slug c, s.find? slug .latest = some c ↔ s.Newest slug c
  /-- There is a latest one of every slug. -/
  named : ∀ c ∈ s.contracts, ∃ newest, s.find? c.slug .latest = some newest

theorem Sound.identified (h : s.Sound) : s.Identified where
  id p hp q hq hid := by
    obtain ⟨id, row⟩ := p
    obtain ⟨id', row'⟩ := q
    obtain rfl : id = id' :=
      (h.keyed _ hp).symm.trans (hid.trans (h.keyed _ hq))
    have hrows := (h.sorted.find?_eq_some.mpr hp).symm.trans
      (h.sorted.find?_eq_some.mpr hq)
    rw [Option.some.inj hrows]
  version p hp q hq hslug hversion := by
    obtain ⟨v, hv, htext⟩ := (h.kept p hp).version
    obtain ⟨w, hw, htext'⟩ := (h.kept q hq).version
    refine h.distinct p hp q hq hslug ?_
    rw [htext, htext', Version.parse?_text hv, Version.parse?_text hw] at hversion
    rw [htext, htext', Option.some.inj hversion]
  kept p hp := ⟨h.kept p hp, fun c hc =>
    ⟨(h.kept p hp).reread (StoredRow.reread hc), StoredRow.sameIdentity hc⟩⟩
  exact slug text v hv c := h.find?_exact (Version.spelled_of_parse? hv)
  latest slug c := h.find?_latest
  named c hc := h.exists_latest? hc

/-! ## Rows under ids -/

/-- Whether there is a row under an id. -/
def Has (s : Store) (id : String) : Prop := ∃ row, Dict.find? s.rows id = some row

/-- Whether the row under an id cannot be read. -/
def Unread (s : Store) (id : String) : Prop :=
  ∃ row, Dict.find? s.rows id = some row ∧ row.contents = none

/-- A written contract takes the place of what is under another id: that cannot be
    read, and has the slug and version of the contract. -/
structure Displaces (s : Store) (d : Contract) (id : String) : Prop where
  other : d.id ≠ id
  row : ∃ row, Dict.find? s.rows id = some row ∧ row.contents = none
    ∧ row.written.slug = d.slug ∧ row.written.version = d.version

theorem Displaces.unread (h : s.Displaces d id) : s.Unread id := by
  obtain ⟨row, hrow, hunread, -⟩ := h.row
  exact ⟨row, hrow, hunread⟩

/-- Where all rows are read none is displaced. -/
theorem not_displaces (h : ∀ p ∈ s.rows, p.2.contents ≠ none) : ¬s.Displaces d id := by
  intro hdisplaces
  obtain ⟨row, hrow, hunread⟩ := hdisplaces.unread
  exact h _ (Dict.mem_of_find? hrow) hunread

theorem has_congr (h : SameContents s t) : s.Has id ↔ t.Has id := by
  rw [Has, Has, h.1]

/-- A write takes away the rows that it displaces, and no others. -/
theorem Sound.has_of_write (h : s.Sound) {now : Instant} {mode : WriteMode}
    (hw : s.write now mode c = .ok (d, t)) (hid : s.Has id) :
    t.Has id ↔ ¬s.Displaces d id := by
  constructor
  · rintro ⟨row, hrow⟩ ⟨hother, old, hold, -, hslug, hversion⟩
    cases (h.gone_of_displaced hw hold hother hslug hversion).2.symm.trans hrow
  · intro hkept
    obtain ⟨row, hrow⟩ := hid
    cases h.fate_of_write hw id with
    | kept _ hfound => exact ⟨row, hfound.trans hrow⟩
    | written _ hfound => exact ⟨_, hfound⟩
    | stamped _ _ _ _ _ hfound => exact ⟨_, hfound⟩
    | lost old hother hold hunread hslug hversion =>
        exact absurd ⟨hother, old, hold, hunread, hslug, hversion⟩ hkept

/-- A row that is there stays, unless one of the writes displaces it. -/
theorem Emits.has {changes : List Change} (h : Emits s changes t) (hs : s.Sound)
    (hid : s.Has id) :
    t.Has id ∨ Wrote s changes t fun u d => u.Displaces d id := by
  have hlasts := h.lasts (P := fun u => u.Has id) (B := fun u d => u.Displaces d id) hs hid
    (fun hsame => (has_congr hsame).mp)
    fun hu hw hhas hkept => (hu.has_of_write hw hhas).mpr hkept
  exact hlasts.imp_right fun hwrote => hwrote.imp fun _ _ => And.right

end Store

namespace Kernel

open Store

variable {k l : Kernel}

/-- Beside a new contract stays what has another id, and another slug or version. -/
theorem has_of_new {c : Contract} {mode : WriteMode} {id : String} {row : StoredRow}
    (hdepth : k.depth = 0) (hc : Store.canonical c = .ok c)
    (hnew : k.store.existing? c = none) (hlink : Link.ofContract? c = none)
    (hsorted : Dict.Sorted k.store.rows) (hrow : Dict.find? k.store.rows id = some row)
    (hid : id ≠ c.id)
    (hother : ¬(row.written.slug = c.slug ∧ row.written.version = c.version)) :
    ((write mode c).run k).2.store.Has id := by
  rw [write_new hdepth hc hnew hlink]
  exact ⟨row, find?_put_keeps hsorted hrow hid hother⟩

/-- The contracts of a reachable store are told apart by their ids, and by
    their slugs and versions.  A row under an id stays for the rest of a run,
    unless its log has the change of a write that displaced the row; and a write
    displaces only what cannot be read. -/
theorem identified_of_reachable [TextLibrary] (hk : Reachable k) (hl : Onward k l) :
    l.store.Identified
      ∧ (∃ changes, l.log = k.log ++ changes ∧ ∀ id, k.store.Has id →
        l.store.Has id ∨ Wrote k.store changes l.store fun s d => s.Displaces d id)
      ∧ ∀ (now : Instant) (mode : WriteMode) (c d : Contract) (t : Store) (id : String),
        l.store.write now mode c = .ok (d, t) → l.store.Has id →
        (t.Has id ↔ ¬l.store.Displaces d id) := by
  have hsound := (hl.reachable hk).sound.store
  obtain ⟨changes, hlog, hemits⟩ := hl.emits hk
  refine ⟨hsound.identified, ⟨changes, hlog, fun id hid => ?_⟩, ?_⟩
  · exact hemits.has hk.sound.store hid
  · exact fun now mode c d t id hw hid => hsound.has_of_write hw hid

/-- The reader and the card last while a next version of the card is written. -/
theorem identified_of_staged :
    Onward (guarded early) staged ∧ staged.store.Identified
      ∧ ∀ id, (guarded early).store.Has id → staged.store.Has id := by
  have hreach := guarded_reachable early
  have honward : Onward (guarded early) staged := .ran (.write _ _) (.here _)
  obtain ⟨hidentified, -, -⟩ := identified_of_reachable hreach honward
  obtain ⟨-, -, hstep⟩ := identified_of_reachable hreach (.here _)
  refine ⟨honward, hidentified, fun id hid => ?_⟩
  have hread : ∀ p ∈ (guarded early).store.rows, p.2.contents ≠ none := by
    simp [rows_guarded, reread_card, reread_early]
  rcases write_store .insert nextCard (guarded early) with
    ⟨e, -, -, hsame⟩ | ⟨d, t, hwrite, hleft⟩
  · exact (has_congr hsame).mpr hid
  · refine (has_congr hleft.2).mpr ?_
    exact (hstep _ _ _ _ _ _ hwrite hid).mpr (not_displaces hread)

/-! ## A card that cannot be read -/

/-- Arrays in one another. -/
def nested : Nat → Json
  | 0 => .array []
  | n + 1 => .array [nested n]

theorem retold_nested {depth n : Nat} (h : depth ≤ n) :
    Json.retold depth (nested n) = none := by
  induction depth generalizing n with
  | zero => cases n <;> rfl
  | succ depth ih =>
      cases n with
      | zero => exact absurd h (Nat.not_succ_le_zero depth)
      | succ n =>
          have hinner := ih (Nat.le_of_succ_le_succ h)
          simp [nested, Json.retold, Json.retoldItems, hinner]

/-- The card with other data. -/
def laden (data : Json) : Contract := { card with data }

theorem canonical_laden (data : Json) :
    Store.canonical (laden data) = .ok (laden data) :=
  Store.canonical_first rfl rfl rfl rfl

theorem reread_laden {data : Json}
    (h : Json.retold (Json.maxDepth - 1) data = none) : (laden data).reread = none := by
  have hdata : ("data", data) ∈ (laden data).rowFields := by
    simp [Contract.rowFields, laden]
  rw [Contract.reread, Json.parse?_render]
  show ((Json.retoldFields (Json.maxDepth - 1) (laden data).rowFields).map _).bind _
    = none
  rw [Json.retoldFields_eq_none hdata h]
  rfl

/-- The kernel after the card with other data was written. -/
def loaded (data : Json) : Kernel := ((write .insert (laden data)).run empty).2

theorem loaded_reachable [TextLibrary] (data : Json) : Reachable (loaded data) :=
  have hempty : create {} empty.supply = .ok empty := rfl
  .ran (.write _ _) (.created hempty)

theorem loaded_eq (data : Json) : ∃ announced, loaded data = { empty with
    supply := empty.supply.next
    store := ⟨[("card", .ofContract (laden data))], [], []⟩
    announced } := by
  rw [loaded, write_new rfl (canonical_laden data) rfl (ofContract?_of_card rfl)]
  exact ⟨_, rfl⟩

/-- Another card with the slug and version of the card. -/
def rival : Contract := { card with id := "rival" }

theorem existing?_rival {data : Json} (h : (laden data).reread = none) :
    (loaded data).store.existing? rival = none := by
  obtain ⟨announced, hloaded⟩ := loaded_eq data
  rw [hloaded]
  simp [Store.existing?, Store.versioned?, Store.contract?, Dict.find?, h, rival, card]

/-- After a card that cannot be read, the other card is inserted in its place. -/
theorem rows_rival {data : Json} (h : (laden data).reread = none) :
    ((write .insert rival).run (loaded data)).2.store.rows
      = [("rival", .ofContract rival)] := by
  obtain ⟨announced, hloaded⟩ := loaded_eq data
  have hdepth : (loaded data).depth = 0 := depth_write _ _ _
  rw [write_new hdepth (Store.canonical_first rfl rfl rfl rfl) (existing?_rival h)
    (ofContract?_of_card rfl)]
  dsimp only
  rw [hloaded]
  simp [Store.put, Dict.insert, rival, laden, card]

/-- A card that cannot be read gives way to another one that is inserted. -/
theorem rival_displaces_card :
    let before := loaded (nested Json.maxDepth)
    let after := ((write .insert rival).run before).2
    Reachable before ∧ Onward before after
      ∧ before.store.Has "card" ∧ ¬after.store.Has "card" := by
  have hunread := reread_laden (retold_nested (Nat.sub_le Json.maxDepth 1))
  generalize nested Json.maxDepth = data at hunread
  refine ⟨loaded_reachable data, .ran (.write _ _) (.here _), ?_, ?_⟩
  · obtain ⟨announced, hloaded⟩ := loaded_eq data
    rw [hloaded]
    exact ⟨_, rfl⟩
  · rintro ⟨row, hrow⟩
    rw [rows_rival hunread] at hrow
    cases hrow

end Kernel

end LinkedContracts
