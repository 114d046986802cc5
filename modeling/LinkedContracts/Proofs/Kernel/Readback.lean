import LinkedContracts.Proofs.Kernel.Tied
import LinkedContracts.Proofs.Kernel.Patched
import LinkedContracts.Proofs.Store.Neighbours
import LinkedContracts.Proofs.Store.Restamped
import LinkedContracts.Proofs.Store.Stamps

/-! # What is written is read

    What was written is found under its id, and other contracts are as before,
    but that those an active link connects have its stamp.

    A link to itself that takes the place of a contract is lost: the contract is
    put back with the stamp of the link. -/

namespace LinkedContracts

namespace Store

variable {s t : Store} {c d : Contract} {now : Instant} {mode : WriteMode}

/-- What a link connects is read back with the stamp of the link, if it lasts. -/
theorem Sound.contract?_of_seen (h : s.Sound) (hw : s.write now mode c = .ok (d, t))
    (hd : d.Lasts) {id : String} {link : Link} {linked : Linked}
    (hlink : Link.ofContract? d = some link) (hactive : link.active = true)
    (hseen : link.seenFrom? id = some linked) {e : Contract}
    (he : s.contract? id = some e) (hlasts : e.Lasts) :
    t.contract? id
      = some { e with linkedAt := Dict.insert e.linkedAt linked.name linked.since } := by
  obtain ⟨hmem, rfl⟩ := h.contract?_eq_some.mp he
  obtain ⟨hend, hlinked⟩ := Link.seenFrom?_eq_some.mp hseen
  obtain ⟨stamped, hstamp, hread⟩ := h.contract?_of_end hw hlink hactive he hend
  rw [Link.stamp?, hseen] at hstamp
  obtain rfl := Option.some.inj hstamp
  have hsince : Instant.parse? linked.since.text = some linked.since := by
    rw [hlinked, (Link.of_ofContract? hlink).2.2]
    exact hd.createdAt
  obtain ⟨row, -, hcontents⟩ := h.row_of_mem hmem
  exact hread.trans (hlasts.stamped (StoredRow.reread hcontents) linked.name hsince)

theorem Sound.contract?_of_links (h : s.Sound) (hw : s.write now mode c = .ok (d, t))
    (hd : d.Lasts) {id : String} (hlinks : Links d id) {e : Contract}
    (he : s.contract? id = some e) (hlasts : e.Lasts) :
    ∃ stamps, t.contract? id = some { e with linkedAt := stamps } := by
  obtain ⟨l, hl, hactive, hend⟩ := hlinks
  have hseen := Link.seenFrom?_eq_some.mpr ⟨hend, rfl⟩
  exact ⟨_, h.contract?_of_seen hw hd hl hactive hseen he hlasts⟩

/-- What was written is read back, unless it is a link to itself in the place of
    a contract that differs from it. -/
theorem Sound.read_written (h : s.Sound) (hw : s.write now mode c = .ok (d, t))
    (hd : d.Lasts) (hends : ∀ e ∈ s.contracts, Links d e.id → e.Lasts) :
    (∃ stamps, t.contract? d.id = some { d with linkedAt := stamps })
      ↔ ∀ found, s.contract? d.id = some found → Links d d.id →
        ∃ stamps, found = { d with linkedAt := stamps } := by
  by_cases hlost : Links d d.id ∧ ∃ found, s.contract? d.id = some found
  · obtain ⟨hloop, found, hfound⟩ := hlost
    obtain ⟨hmem, hid⟩ := h.contract?_eq_some.mp hfound
    obtain ⟨stamps, hback⟩ := h.contract?_of_links hw hd hloop hfound
      (hends found hmem (hid ▸ hloop))
    rw [hback, hfound]
    constructor
    · rintro ⟨others, hsame⟩ found' ⟨⟩ -
      -- what was put back has its own stamps again
      exact ⟨found.linkedAt, congrArg
        (fun e : Contract => { e with linkedAt := found.linkedAt }) (Option.some.inj hsame)⟩
    · intro hall
      obtain ⟨others, rfl⟩ := hall found rfl hloop
      exact ⟨stamps, rfl⟩
  · have hnot : ¬Links d d.id ∨ s.contract? d.id = none := by
      by_cases hloop : Links d d.id
      · refine .inr (Option.eq_none_iff_forall_ne_some.mpr fun found hfound => ?_)
        exact hlost ⟨hloop, found, hfound⟩
      · exact .inl hloop
    rw [h.contract?_of_write hw hnot, if_pos rfl]
    constructor
    · intro _ found hfound hloop
      exact absurd ⟨hloop, found, hfound⟩ hlost
    · intro _
      exact hd

/-- Another contract is as before, unless an active link connects it; then it has
    the stamp of the link, under the name that the link has from there. -/
theorem Sound.read_others (h : s.Sound) (hw : s.write now mode c = .ok (d, t))
    (hd : d.Lasts) (hends : ∀ e ∈ s.contracts, Links d e.id → e.Lasts) {id : String}
    (hid : id ≠ d.id) :
    (¬Links d id → t.contract? id = s.contract? id)
      ∧ ∀ link linked, Link.ofContract? d = some link → link.active = true →
        link.seenFrom? id = some linked →
        t.contract? id = (s.contract? id).map fun e =>
          { e with linkedAt := Dict.insert e.linkedAt linked.name linked.since } := by
  constructor
  · intro hlinks
    rw [h.contract?_of_write hw (.inl hlinks), if_neg hid]
  · intro link linked hlink hactive hseen
    cases he : s.contract? id with
    | none => rw [h.contract?_of_write hw (.inr he), if_neg hid, he, Option.map_none]
    | some e =>
        obtain ⟨hmem, rfl⟩ := h.contract?_eq_some.mp he
        have hlasts := hends e hmem
          ⟨link, hlink, hactive, (Link.seenFrom?_eq_some.mp hseen).1⟩
        exact h.contract?_of_seen hw hd hlink hactive hseen he hlasts

end Store

namespace Kernel

open Store

variable {k l : Kernel} {c d : Contract} {mode : WriteMode}

/-- A write that succeeds leaves the contents of the written store. -/
theorem write_of_ok (hw : (write mode c).run k = (.ok d, l)) :
    ∃ t, k.store.write k.supply.now mode c = .ok (d, t) ∧ SameContents l.store t := by
  rcases write_store mode c k with ⟨e, -, he, -⟩ | ⟨written, t, hwrite, hok, hsame⟩
  · rw [hw] at he
    cases he
  · rw [hw] at hok hsame
    obtain rfl := Except.ok.inj hok
    exact ⟨t, hwrite, hsame⟩

/-- What was written is read, all but its stamps, unless it is a link to itself
    in the place of a contract that differs from it.  Other contracts are as
    before, but for the one stamp of each that an active link connects. -/
theorem read_of_write [TextLibrary] (hk : Reachable k) (hw : (write mode c).run k = (.ok d, l))
    (hd : d.Lasts) (hends : ∀ e ∈ k.store.contracts, Links d e.id → e.Lasts) :
    ((∃ stamps, l.store.contract? d.id = some { d with linkedAt := stamps })
        ↔ ∀ found, k.store.contract? d.id = some found → Links d d.id →
          ∃ stamps, found = { d with linkedAt := stamps })
      ∧ ∀ id, id ≠ d.id →
        (¬Links d id → l.store.contract? id = k.store.contract? id)
          ∧ ∀ link linked, Link.ofContract? d = some link → link.active = true →
            link.seenFrom? id = some linked →
            l.store.contract? id = (k.store.contract? id).map fun e =>
              { e with linkedAt := Dict.insert e.linkedAt linked.name linked.since } := by
  obtain ⟨t, hwrite, hrows, -⟩ := write_of_ok hw
  have hstore (id : String) : l.store.contract? id = t.contract? id := by
    rw [contract?, contract?, hrows]
  have hsound := hk.sound.store
  simp only [hstore]
  exact ⟨hsound.read_written hwrite hd hends,
    fun id hid => hsound.read_others hwrite hd hends hid⟩

theorem contract?_liking (read : Json) :
    (guarded read).store.contract? "liking" = none := by
  simp [contract?, rows_guarded, Dict.find?]

theorem existing?_liking (read : Json) : (guarded read).store.existing? liking = none := by
  have hcard : card.slug ≠ "liking" := by decide
  have hslug : liking.slug = "liking" := rfl
  have hid : liking.id = "liking" := rfl
  have hversioned : (guarded read).store.versioned? "liking" liking.version = none := by
    simp [versioned?, rows_guarded, hcard]
  rw [existing?, hslug, hid, hversioned, contract?_liking]

theorem write_liking : ∃ t,
    (guarded anonymous).store.write (guarded anonymous).supply.now .insert liking
      = .ok (liking, t) :=
  ⟨_, write_fresh .insert (Store.canonical_first rfl rfl rfl rfl)
    (existing?_liking anonymous) _⟩

/-- The link of the reader to the card is read once it was written, and the card
    with its stamp. -/
theorem read_of_liking :
    ∃ l, (write .insert liking).run (guarded anonymous) = (.ok liking, l)
      ∧ (∃ stamps, l.store.contract? "liking" = some { liking with linkedAt := stamps })
      ∧ l.store.contract? "card"
        = some { card with linkedAt := [("is liked by", ⟨0, 0⟩)] } := by
  have hfresh := write_fresh .insert (Store.canonical_first rfl rfl rfl rfl)
    (existing?_liking anonymous) (guarded anonymous).supply.now
  have hwrite := write_run (depth_guarded anonymous) hfresh
  have hends : ∀ e ∈ (guarded anonymous).store.contracts, Links liking e.id → e.Lasts :=
    forall_mem_guarded reread_anonymous (fun _ => ⟨[], reread_card⟩)
      (fun _ => ⟨[], reread_anonymous⟩)
  obtain ⟨hwritten, hothers⟩ := read_of_write (guarded_reachable anonymous) hwrite
    ⟨[], reread_liking⟩ hends
  have hcard : (guarded anonymous).store.contract? "card" = some card :=
    (guarded_reachable anonymous).sound.store.contract?_eq_some.mpr
      ⟨card_mem_guarded reread_anonymous, rfl⟩
  refine ⟨_, hwrite, hwritten.mpr ?_, ?_⟩
  · -- nothing was there under the id of the link
    intro found hfound
    cases (contract?_liking anonymous).symm.trans hfound
  · have hlink : Link.ofContract? liking = some ⟨"liking", "likes", "is liked by",
        "reader", "card", true, ⟨0, 0⟩⟩ := rfl
    rw [(hothers "card" (by decide)).2 _ ⟨"is liked by", "reader", ⟨0, 0⟩⟩ hlink rfl
      (by decide), hcard]
    rfl

/-! ## A link to itself -/

/-- A link that connects itself to itself. -/
def mirror (name : String) : Contract :=
  { liking with
    name := some name
    data := .object
      [("from", .string "liking"), ("inverseName", .string "is liked by"),
       ("to", .string "liking")] }

theorem slug_mirror (name : String) : (mirror name).slug = "liking" := rfl

theorem version_mirror (name : String) : (mirror name).version = "1.0.0" := rfl

/-- The kernel after the link was written. -/
def mirrored : Kernel := ((write .insert (mirror "likes")).run empty).2

theorem mirrored_reachable : Reachable mirrored :=
  have hempty : create {} empty.supply = .ok empty := rfl
  .ran (.write _ _) (.created hempty)

theorem reread_mirror (name : String) : (mirror name).reread = some (mirror name) :=
  Contract.reread_eq rfl rfl rfl parse?_start rfl rfl nofun

/-- What has the parts of the link is a link to itself. -/
theorem ofContract?_mirror {c : Contract} {name : String} (htype : c.type = Link.type)
    (hname : c.name = some name) (hdata : c.data = (mirror name).data) :
    Link.ofContract? c
      = some ⟨c.id, name, "is liked by", "liking", "liking", c.active, c.createdAt⟩ := by
  refine Link.ofContract?_eq htype hname ?_ ?_ ?_ <;> rw [hdata] <;> rfl

theorem canonical_mirror (name : String) :
    Store.canonical (mirror name) = .ok (mirror name) :=
  Store.canonical_first rfl rfl rfl rfl

theorem mirrored_eq : ∃ announced, mirrored = { empty with
    supply := empty.supply.next
    store := ⟨[("liking", .ofContract (mirror "likes"))],
      [("liking", ⟨"likes", "is liked by", "liking", "liking"⟩)], []⟩
    announced } := by
  rw [mirrored, write_run rfl (Store.write_loose (canonical_mirror _) rfl
    (ofContract?_mirror rfl rfl rfl) rfl _ _)]
  exact ⟨_, rfl⟩

theorem contract?_mirrored :
    mirrored.store.contract? "liking" = some (mirror "likes") := by
  obtain ⟨announced, hmirrored⟩ := mirrored_eq
  have hrow : Dict.find? mirrored.store.rows "liking"
      = some (.ofContract (mirror "likes")) := by
    rw [hmirrored]
    rfl
  rw [contract?, hrow, Option.bind_some, StoredRow.contents_ofContract, reread_mirror]

theorem existing?_mirrored :
    mirrored.store.existing? (mirror "loves") = some (mirror "likes") := by
  have hsound := mirrored_reachable.sound.store
  refine hsound.existing?_eq_some.mpr
    ⟨(hsound.contract?_eq_some.mp contract?_mirrored).1, .inl ?_⟩
  rw [slug_mirror, slug_mirror, version_mirror, version_mirror]
  exact ⟨rfl, rfl⟩

/-- The link is returned under its new name. -/
theorem write_mirror : ∃ d t,
    mirrored.store.write mirrored.supply.now .upsert (mirror "loves") = .ok (d, t)
      ∧ d.id = "liking" ∧ d.name = some "loves"
      ∧ Link.ofContract? d
        = some ⟨d.id, "loves", "is liked by", "liking", "liking", d.active, d.createdAt⟩
      ∧ d.active = true ∧ d.createdAt = ⟨0, 0⟩ :=
  ⟨_, _, write_existing (canonical_mirror "loves") existing?_mirrored _, rfl, rfl,
    ofContract?_mirror rfl rfl rfl, rfl, rfl⟩

/-- A link to itself is returned under its new name, and read under its old
    one. -/
theorem mirror_not_read :
    let after := (write .upsert (mirror "loves")).run mirrored
    Reachable mirrored ∧ ∃ d e, after.1 = .ok d ∧ d.name = some "loves"
      ∧ after.2.store.contract? d.id = some e ∧ e.name = some "likes" := by
  have hdepth : mirrored.depth = 0 := depth_write _ _ _
  obtain ⟨d, t, hwrite, hid, hname, hlink, hactive, hcreatedAt⟩ := write_mirror
  rw [hid, hactive, hcreatedAt] at hlink
  obtain ⟨stamped, hstamp, hread⟩ := mirrored_reachable.sound.store.contract?_of_end
    hwrite hlink rfl contract?_mirrored (.inl rfl)
  obtain rfl := Option.some.inj hstamp
  -- the old link was put back, with the stamp of the new one
  have hpunctual : Contract.Punctual [("loves", (⟨0, 0⟩ : Instant))] := by
    intro p hp
    obtain rfl := List.mem_singleton.mp hp
    exact parse?_start
  have hstamps := Contract.reread_punctual (reread_mirror "likes")
    (show Dict.Sorted [("loves", (⟨0, 0⟩ : Instant))] from List.pairwise_singleton _ _)
    hpunctual
  refine ⟨mirrored_reachable, d, { mirror "likes" with linkedAt := [("loves", ⟨0, 0⟩)] },
    ?_, hname, ?_, rfl⟩
  · rw [write_run hdepth hwrite]
  · rw [write_run hdepth hwrite, hid]
    exact hread.trans hstamps

end Kernel

end LinkedContracts
