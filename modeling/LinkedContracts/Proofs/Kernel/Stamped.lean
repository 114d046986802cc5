import LinkedContracts.Proofs.Kernel.Frame
import LinkedContracts.Proofs.Kernel.Lasting
import LinkedContracts.Proofs.Kernel.Readback
import LinkedContracts.Proofs.Kernel.Replaced

/-! # Stamps that last

    An active link leaves a stamp on each contract it connects, under the name it
    has from there.  The stamp stays while other links come and go, and a patch
    of the contract keeps it.  What takes the place of the contract under its id
    brings its own stamps, and a replacement seldom brings any. -/

namespace LinkedContracts

/-- What is read back has the stamps it was written with. -/
theorem Contract.mem_linkedAt_of_reread {c d : Contract} {name : String}
    (h : c.reread = some d) : name ∈ Dict.keys d.linkedAt ↔ name ∈ Dict.keys c.linkedAt := by
  rw [keys_of_valuesOf (valuesOf_of_reread h), Dict.mem_keys_ofList]
  simp [Dict.keys, Dict.mapValues]

/-- The names of the stamps that a document shows. -/
def Json.stampNames (image : Json) : List String :=
  match image.field? "linked_at" with
  | some (.object stamps) => Dict.keys stamps
  | _ => []

/-- What a link looks like from a contract is the name of its stamp there. -/
theorem Link.mem_linkedAt_of_stamp? {l : Link} {c stamped : Contract} {name : String}
    (h : l.stamp? c = some stamped) : name ∈ Dict.keys stamped.linkedAt
      ↔ (∃ linked, l.seenFrom? c.id = some linked ∧ linked.name = name)
        ∨ name ∈ Dict.keys c.linkedAt := by
  obtain ⟨linked, hseen, rfl⟩ := Option.map_eq_some_iff.mp h
  rw [Dict.mem_keys_insert, hseen]
  simp [eq_comm]

namespace Store

open Kernel

variable {s t u : Store} {c d e : Contract} {l : Link} {id name : String} {now : Instant}
  {mode : WriteMode}

/-- Whether the contract kept under an id has a stamp with a name. -/
def Stamped (s : Store) (id name : String) : Prop :=
  ∃ row, Dict.find? s.rows id = some row ∧ name ∈ Dict.keys row.written.linkedAt

theorem stamped_iff_of_row {row : StoredRow} (hrow : Dict.find? s.rows id = some row) :
    s.Stamped id name ↔ name ∈ Dict.keys row.written.linkedAt := by
  constructor
  · rintro ⟨row', hrow', hname⟩
    obtain rfl := Option.some.inj (hrow.symm.trans hrow')
    exact hname
  · exact fun hname => ⟨row, hrow, hname⟩

theorem stamped_congr (h : SameContents s t) : s.Stamped id name ↔ t.Stamped id name := by
  rw [Stamped, Stamped, h.1]

/-- How a write takes a stamp off the contract under an id. -/
inductive Drops (s : Store) (d : Contract) (id name : String) : Prop where
  /-- What is written takes the place of the contract, which is not put back, and
      has no such stamp. -/
  | replaced (hid : d.id = id) (hname : name ∉ Dict.keys d.linkedAt)
      (hput : ¬Links d id ∨ s.contract? id = none)
  /-- The contract cannot be read, and what is written has its slug and
      version. -/
  | displaced (row : StoredRow) (hid : d.id ≠ id) (hrow : Dict.find? s.rows id = some row)
      (hunread : row.contents = none) (hslug : row.written.slug = d.slug)
      (hversion : row.written.version = d.version)

theorem stampNames_image (s : Store) (c : Contract) :
    (s.image c).stampNames = Dict.keys c.linkedAt := by
  have hfield : (s.image c).field? "linked_at"
      = some (.object (Dict.mapValues (fun t => .string t.text) c.linkedAt)) :=
    Dict.find?_insert_of_ne _ _ (by decide)
  rw [Json.stampNames, hfield]
  simp [Dict.keys, Dict.mapValues]

/-- The stamps of a contract that is read are those of its row. -/
theorem stamped_of_contract? (h : s.contract? id = some e) :
    s.Stamped id name ↔ name ∈ Dict.keys e.linkedAt := by
  obtain ⟨row, hrow, hcontents⟩ := Option.bind_eq_some_iff.mp h
  rw [stamped_iff_of_row hrow, Contract.mem_linkedAt_of_reread (StoredRow.reread hcontents)]

section

variable (h : s.Sound) (hw : s.write now mode c = .ok (d, t))

include h hw

/-- What an active link connects keeps its stamps and gets that of the link. -/
theorem Sound.stamped_of_end (hl : Link.ofContract? d = some l) (hactive : l.active = true)
    (he : s.contract? id = some e) (hend : l.fromId = id ∨ l.toId = id) :
    t.Stamped id name ↔ (∃ linked, l.seenFrom? id = some linked ∧ linked.name = name)
      ∨ s.Stamped id name := by
  rw [stamped_of_contract? he]
  obtain ⟨hmem, rfl⟩ := h.contract?_eq_some.mp he
  obtain ⟨stamped, hstamp, hrow⟩ := h.marked_of_write hw hl hactive hmem hend
  rw [← Link.mem_linkedAt_of_stamp? hstamp, stamped_iff_of_row hrow]
  rfl

/-- What an active link does not connect keeps its stamps, unless the write drops
    them. -/
theorem Sound.stamped_of_apart (hother : ¬Links d id ∨ s.contract? id = none)
    (hstamped : s.Stamped id name) : t.Stamped id name ↔ ¬s.Drops d id name := by
  obtain ⟨row, hrow, hname⟩ := hstamped
  by_cases hid : d.id = id
  · subst hid
    have hput : Dict.find? t.rows d.id = some (.ofContract d) :=
      (h.find?_of_write_put hw hother).trans (find?_put_self s d)
    rw [stamped_iff_of_row hput]
    constructor
    · rintro hkept (⟨-, hgone, -⟩ | ⟨-, hid, -⟩)
      · exact hgone hkept
      · exact hid rfl
    · intro hkeeps
      exact Decidable.byContradiction fun hgone => hkeeps (.replaced rfl hgone hother)
  · constructor
    · rintro ⟨row', hrow', -⟩ (⟨hsame, -, -⟩ | ⟨old, -, hold, -, hslug, hversion⟩)
      · exact hid hsame
      · cases (h.gone_of_displaced hw hold hid hslug hversion).2.symm.trans hrow'
    · intro hkeeps
      refine ⟨row, ?_, hname⟩
      rw [h.find?_of_write_put hw hother]
      refine find?_put_keeps h.sorted hrow (Ne.symm hid) fun ⟨hslug, hversion⟩ => hkeeps ?_
      exact .displaced row hid hrow (h.gone_of_displaced hw hrow hid hslug hversion).1 hslug
        hversion

/-- A stamp stays in a write, unless the write drops it. -/
theorem Sound.stamped_of_write (hstamped : s.Stamped id name) :
    t.Stamped id name ↔ ¬s.Drops d id name := by
  by_cases hother : ¬Links d id ∨ s.contract? id = none
  · exact h.stamped_of_apart hw hother hstamped
  · obtain ⟨hlinks, hthere⟩ := not_or.mp hother
    obtain ⟨e, he⟩ := Option.ne_none_iff_exists'.mp hthere
    obtain ⟨l, hl, hactive, hend⟩ := Classical.not_not.mp hlinks
    refine iff_of_true ((h.stamped_of_end hw hl hactive he hend).mpr (.inr hstamped)) ?_
    rintro (⟨-, -, hput⟩ | ⟨row, -, hrow, hunread, -, -⟩)
    · exact hother hput
    · cases he.symm.trans (contract?_of_unread hrow hunread)

end

theorem linkedAt_written (hw : s.write now mode c = .ok (d, t)) : d.linkedAt = c.linkedAt := by
  obtain ⟨e, he, hwritten⟩ := write_ok hw
  obtain ⟨-, -, v, -, rfl⟩ := canonical_ok he
  rcases hwritten with ⟨found, -, -, rfl, -⟩ | ⟨-, rfl, -⟩
  · rfl
  · rfl

/-- An insertion drops stamps only of what cannot be read. -/
theorem unread_of_inserted (hw : s.write now .insert c = .ok (d, t))
    (hstamped : s.Stamped id name) (hdrops : s.Drops d id name) : s.Unread id := by
  obtain ⟨row, hrow, -⟩ := hstamped
  cases hdrops with
  | replaced hid hname hput =>
      obtain ⟨e, -, ⟨found, -, hmode, -, -⟩ | ⟨hnone, rfl, -⟩⟩ := write_ok hw
      · cases hmode
      · refine ⟨row, hrow, ?_⟩
        rw [Store.existing?, hid, contract?, hrow, Option.bind_some] at hnone
        split at hnone
        · cases hnone
        · exact hnone
  | displaced row hid hrow hunread => exact ⟨row, hrow, hunread⟩

/-! ## Runs -/

/-- Whether a change announces a contract under an id without a stamp. -/
def Unstamps (id name : String) (ch : Change) : Prop :=
  ch.id = id ∧ ∃ image, ch.after = some image ∧ name ∉ image.stampNames

/-- What is written is announced with its stamps. -/
theorem unstamps_ensuing (hid : d.id = id) (hname : name ∉ Dict.keys d.linkedAt) :
    ∃ ch ∈ s.ensuing d, Unstamps id name ch := by
  refine ⟨_, List.mem_cons_self, hid, _, rfl, ?_⟩
  rwa [stampNames_image]

/-- Whatever is kept under an id in the end has the stamp, or the write announces
    that it has none. -/
theorem Sound.stamped_or_announced (h : s.Sound) (hw : s.write now mode c = .ok (d, t))
    (hkept : s.Has id → s.Stamped id name) :
    (t.Has id → t.Stamped id name) ∨ ∃ ch ∈ s.ensuing d, Unstamps id name ch := by
  by_cases hbare : d.id = id ∧ name ∉ Dict.keys d.linkedAt
  · exact .inr (unstamps_ensuing hbare.1 hbare.2)
  refine .inl fun hhas => ?_
  by_cases hthere : s.Has id
  · refine (h.stamped_of_write hw (hkept hthere)).mpr ?_
    rintro (⟨hid, hname, -⟩ | ⟨row, hid, hrow, -, hslug, hversion⟩)
    · exact hbare ⟨hid, hname⟩
    · obtain ⟨row', hrow'⟩ := hhas
      cases (h.gone_of_displaced hw hrow hid hslug hversion).2.symm.trans hrow'
  · have hnone : Dict.find? s.rows id = none :=
      Option.eq_none_iff_forall_ne_some.mpr fun row hrow => hthere ⟨row, hrow⟩
    have hother : s.contract? id = none := by rw [contract?, hnone, Option.bind_none]
    obtain ⟨row, hrow⟩ := hhas
    refine ⟨row, hrow, ?_⟩
    rw [h.find?_of_write_put hw (.inr hother)] at hrow
    by_cases hid : d.id = id
    · subst hid
      rw [find?_put_self] at hrow
      obtain rfl := Option.some.inj hrow
      exact Decidable.byContradiction fun hname => hbare ⟨rfl, hname⟩
    · rw [find?_put_of_ne h.sorted (Ne.symm hid), hnone] at hrow
      cases hrow

/-- Whatever is kept under an id in the end has the stamp, or a change on the way
    announces that it has none. -/
theorem Emits.stamped {changes : List Change} (h : Emits s changes t) (hs : s.Sound)
    (hkept : s.Has id → s.Stamped id name) :
    (t.Has id → t.Stamped id name) ∨ ∃ ch ∈ changes, Unstamps id name ch := by
  induction h with
  | same h => exact .inl fun hhas => (stamped_congr h).mp (hkept ((has_congr h).mpr hhas))
  | written hemits hw hsame ih =>
      rcases ih with hbefore | ⟨ch, hch, hbare⟩
      · rcases (hemits.sound hs).stamped_or_announced hw hbefore with
          hafter | ⟨ch, hch, hbare⟩
        · exact .inl fun hhas => (stamped_congr hsame).mp (hafter ((has_congr hsame).mpr hhas))
        · exact .inr ⟨ch, List.mem_append_right _ hch, hbare⟩
      · exact .inr ⟨ch, List.mem_append_left _ hch, hbare⟩

end Store

namespace Kernel

open Store

variable {k l m : Kernel} {session reference : String} {mask : Schema} {r : Reference}
  {operations : List PatchOperation} {full c d e : Contract} {id name : String}

/-! ## Patches -/

/-- A patched contract has the stamps of the contract it was made of. -/
theorem Works.mem_linkedAt [TextLibrary] {view : Json} {p : Patched}
    (h : k.Works mask r operations full view p) (hc : p.contract = some c) :
    name ∈ Dict.keys c.linkedAt ↔ name ∈ Dict.keys full.linkedAt := by
  obtain ⟨patched, happly, hread⟩ := h.writes c hc
  obtain ⟨fields, rfl⟩ := Patch.object_steps happly
  have hlinkedAt : Dict.find? fields "linked_at"
      = some (.object (Dict.mapValues (fun t => .string t.text) full.linkedAt)) := by
    rw [← Json.part?_singleton, Patch.part?_steps happly fun op _ =>
      PatchOperation.not_touches_immutable (by decide), part?_toJson (by decide)]
    rfl
  have hreads := (Contract.readFrom_of_ofFields (ofJson?_of_readPatched hread)).linkedAt
  rw [hlinkedAt] at hreads
  rw [Contract.keys_of_valuesOf hreads]
  simp [Dict.keys, Dict.mapValues]

/-- A patch keeps the stamps of the contract that is patched. -/
theorem Sound.stamped_of_patch [TextLibrary] (hk : k.Sound)
    (href : Reference.parse reference = .ok r) (hfull : k.store.find? r.slug r.version = some full)
    (hstamped : k.store.Stamped full.id name) :
    ((patchFor session reference operations).run k).2.store.Stamped full.id name := by
  rcases patchFor_store k session reference operations with
    hsame | ⟨r', mask, p, c, written, store, href', -, hp, hc, hwrite, -, hsame⟩
  · exact (stamped_congr hsame).mpr hstamped
  obtain rfl := Except.ok.inj (href.symm.trans href')
  obtain ⟨full', view, hworks⟩ := hk.works_of_patched hp
  obtain rfl := Option.some.inj (hfull.symm.trans hworks.named)
  have hthere : k.store.contract? full.id = some full :=
    hk.store.contract?_eq_some.mpr ⟨Store.mem_of_find? hfull, rfl⟩
  have hkept : store.Stamped full.id name := by
    refine (hk.store.stamped_of_write hwrite hstamped).mpr ?_
    rintro (⟨-, hname, -⟩ | ⟨row, -, hrow, hunread, -, -⟩)
    · rw [linkedAt_written hwrite, hworks.mem_linkedAt hc] at hname
      exact hname ((stamped_of_contract? hthere).mp hstamped)
    · cases hthere.symm.trans (contract?_of_unread hrow hunread)
  exact (stamped_congr hsame).mpr hkept

/-! ## A card with a link -/

/-- A link of the card to itself. -/
def bond : Contract :=
  { liking with
    id := "bond", slug := "bond"
    data := .object
      [("from", .string "card"), ("inverseName", .string "is liked by"),
       ("to", .string "card")] }

/-- The card with the stamp of the link. -/
def bondedCard : Contract := { card with linkedAt := [("likes", ⟨0, 0⟩)] }

/-- The kernel after the link was written. -/
def bonded : Kernel := ((write .insert bond).run (guarded titled)).2

theorem bonded_reachable : Reachable bonded :=
  .ran (.write _ _) (guarded_reachable titled)

theorem reread_bondedCard : bondedCard.reread = some bondedCard := by
  have hsorted : Dict.Sorted bondedCard.linkedAt := List.pairwise_singleton _ _
  refine Contract.reread_punctual reread_card hsorted fun p hp => ?_
  obtain rfl := List.mem_singleton.mp hp
  exact parse?_start

theorem reread_bond : bond.reread = some bond :=
  Contract.reread_eq rfl rfl rfl parse?_start rfl rfl nofun

/-- What the link is to the store. -/
def bondLink : Link := ⟨"bond", "likes", "is liked by", "card", "card", true, ⟨0, 0⟩⟩

theorem ofContract?_bond : Link.ofContract? bond = some bondLink := rfl

theorem stamp?_card : bondLink.stamp? card = some bondedCard := rfl

theorem existing?_bond : (guarded titled).store.existing? bond = none := by
  have hslug : card.slug ≠ bond.slug := by decide
  have hother : "role-reader" ≠ bond.slug := by decide
  have hid : "card" ≠ bond.id ∧ "reader" ≠ bond.id := by decide
  simp [Store.existing?, Store.versioned?, Store.contract?, rows_guarded, Dict.find?, hslug,
    hother, hid]

theorem write_bond : ∃ t,
    (guarded titled).store.write (guarded titled).supply.now .insert bond = .ok (bond, t)
      ∧ t.rows = [("bond", .ofContract bond), ("card", .ofContract bondedCard),
          ("reader", .ofContract (reader titled))]
      ∧ t.edges = [("bond", .ofLink bondLink)] := by
  have hsound := (guarded_reachable titled).sound.store
  have hwrite := Store.write_fresh .insert (Store.canonical_first rfl rfl rfl rfl)
    existing?_bond (guarded titled).supply.now
  refine ⟨_, hwrite, ?_, ?_⟩
  · have hcard : (guarded titled).store.contract? "card" = some card :=
      hsound.contract?_eq_some.mpr ⟨card_mem_guarded reread_titled, rfl⟩
    have hends : (guarded titled).store.endpoints (some bondLink)
        = [(card, (guarded titled).store.image card)] := by
      simp [Store.endpoints, Store.endpointIds, bondLink, hcard]
    have hlt : "bond" < "card" := by decide
    rw [hsound.rows_halfway hwrite ofContract?_bond, hends, halfway, Store.stampAll,
      stamp_of_stamp? rfl stamp?_card]
    simp [Store.stampAll, Store.put, Store.putLink, rows_guarded, Dict.insert, bond, bondedCard,
      liking, card, reader, StoredRow.ofContract, hlt, String.lt_asymm hlt]
  · rw [edges_of_write hwrite, ofContract?_bond, edges_guarded]
    rfl

theorem bonded_eq : (write .insert bond).run (guarded titled) = (.ok bond, bonded)
    ∧ bonded.store = ⟨[("bond", .ofContract bond), ("card", .ofContract bondedCard),
        ("reader", .ofContract (reader titled))],
      [("bond", .ofLink bondLink)], []⟩ := by
  obtain ⟨t, hwrite, hrows, hedges⟩ := write_bond
  rw [bonded, write_run (depth_guarded titled) hwrite, hrows, hedges]
  exact ⟨rfl, rfl⟩

theorem row_bonded :
    Dict.find? bonded.store.rows "card" = some (.ofContract bondedCard) := by
  rw [bonded_eq.2]
  rfl

theorem contracts_bonded : bonded.store.contracts = [bond, bondedCard, reader titled] := by
  simp [Store.contracts, bonded_eq.2, reread_bond, reread_bondedCard, reread_titled]

/-! ## Linked contracts -/

/-- The stamp of an active link is on each contract that the link connected when
    it was written, for as long as there is a row of the contract, unless a change
    announces that the contract has no such stamp.

    From a kernel where it is, a write drops it exactly if it puts a contract
    without it in place of that row and does not put the old one back, or if the
    row cannot be read and gives way to another one.  An insertion does so only
    where the row cannot be read, and a patch of the contract never. -/
theorem stamped_while_linked [TextLibrary] {s : Store} {now : Instant} {mode : WriteMode}
    {link : Link} {linked : Linked} (hk : Reachable k) (hw : k.store.write now mode c = .ok (d, s))
    (hlink : Link.ofContract? d = some link) (hactive : link.active = true)
    (hseen : link.seenFrom? id = some linked) (he : k.store.contract? id = some e)
    (hkl : Onward k l) (hl : SameContents l.store s) (hlm : Onward l m) :
    (∃ changes, m.log = l.log ++ changes
        ∧ ((m.store.Has id → m.store.Stamped id linked.name)
          ∨ ∃ ch ∈ changes, Unstamps id linked.name ch))
      ∧ (m.store.Stamped id linked.name →
        (∀ now mode c d t, m.store.write now mode c = .ok (d, t) →
          (t.Stamped id linked.name ↔ ¬m.store.Drops d id linked.name)
            ∧ (mode = .insert → m.store.Drops d id linked.name → m.store.Unread id))
        ∧ ∀ session reference operations r full, Reference.parse reference = .ok r →
          m.store.find? r.slug r.version = some full → full.id = id →
          ((patchFor session reference operations).run m).2.store.Stamped id linked.name) := by
  have hsound := hk.sound.store
  have hlsound := (hkl.reachable hk).sound
  have hmsound := (hlm.reachable (hkl.reachable hk)).sound
  have hend := (Link.seenFrom?_eq_some.mp hseen).1
  have hstamped : s.Stamped id linked.name :=
    (hsound.stamped_of_end hw hlink hactive he hend).mpr (.inl ⟨linked, hseen, rfl⟩)
  refine ⟨?_, fun hthere => ⟨fun now mode c d t hwrite => ⟨?_, ?_⟩, ?_⟩⟩
  · obtain ⟨changes, hlog, hemits⟩ := hlm.emits (hkl.reachable hk)
    refine ⟨changes, hlog, hemits.stamped hlsound.store fun _ => ?_⟩
    exact (stamped_congr hl).mpr hstamped
  · exact hmsound.store.stamped_of_write hwrite hthere
  · rintro rfl
    exact unread_of_inserted hwrite hthere
  · rintro session reference operations r full href hfull rfl
    exact hmsound.stamped_of_patch href hfull hthere

/-- Nothing has the slug and version of the next card, or its id. -/
theorem existing?_bonded : bonded.store.existing? nextCard = none := by
  have hother : ∀ d ∈ bonded.store.contracts,
      ¬(d.slug = nextCard.slug ∧ d.version = nextCard.version) ∧ d.id ≠ nextCard.id := by
    intro d hd
    rw [contracts_bonded] at hd
    simp only [List.mem_cons, List.not_mem_nil, or_false] at hd
    rcases hd with rfl | rfl | rfl <;> decide
  refine Option.eq_none_iff_forall_ne_some.mpr fun d hd => ?_
  obtain ⟨hmem, hsame⟩ := bonded_reachable.sound.store.existing?_eq_some.mp hd
  rcases hsame with hsame | ⟨-, hid⟩
  · exact (hother d hmem).1 hsame
  · exact (hother d hmem).2 hid

/-- The card has the stamp of its link to itself, also after its next version was
    written. -/
theorem stamped_while_linked_card :
    let after := (write .insert nextCard).run bonded
    after.1 = .ok nextCard ∧ Onward bonded after.2 ∧ after.2.store.Stamped "card" "likes" := by
  obtain ⟨t, hwrite, hrows, hedges⟩ := write_bond
  have hseen : bondLink.seenFrom? "card" = some ⟨"likes", "card", ⟨0, 0⟩⟩ := by decide
  have hcard : (guarded titled).store.contract? "card" = some card :=
    (guarded_reachable titled).sound.store.contract?_eq_some.mpr
      ⟨card_mem_guarded reread_titled, rfl⟩
  have hleft : SameContents bonded.store t := by
    rw [bonded, write_run (depth_guarded titled) hwrite]
    exact ⟨rfl, rfl⟩
  have hbonded : Onward (guarded titled) bonded := .ran (.write _ _) (.here _)
  have hdepth : bonded.depth = 0 := depth_write _ _ _
  have hnext := write_new hdepth rfl existing?_bonded rfl .insert
  have honward : Onward bonded ((write .insert nextCard).run bonded).2 :=
    .ran (.write _ _) (.here _)
  obtain ⟨⟨changes, hlog, hstamped⟩, -⟩ := stamped_while_linked (guarded_reachable titled)
    hwrite ofContract?_bond rfl hseen hcard hbonded hleft honward
  -- only the next version was announced
  rw [log_of_new hdepth rfl existing?_bonded rfl] at hlog
  obtain rfl := List.append_cancel_left hlog
  refine ⟨congrArg Prod.fst hnext, honward, hstamped.resolve_right ?_ ?_⟩
  · rintro ⟨ch, hch, hid, -⟩
    obtain rfl := List.mem_singleton.mp hch
    exact absurd hid (by decide)
  · exact has_of_new hdepth rfl existing?_bonded rfl bonded_reachable.sound.store.sorted
      row_bonded (by decide) fun hsame => absurd hsame.2 (by decide)

/-! ## A contract that is replaced -/

theorem mask_bonded : bonded.mask "reader" = .ok titledMask := by
  have hversion : Version.parse? "1.0.0" = some Version.initial := by decide
  have hbond : bond.slug = "bond" := rfl
  have hcard : bondedCard.slug = "card" := rfl
  have hrow : Dict.find? bonded.store.rows "reader" = some (.ofContract (reader titled)) := by
    rw [bonded_eq.2]
    rfl
  have hcontract : bonded.store.contract? "reader" = some (reader titled) := by
    rw [Store.contract?, hrow, Option.bind_some, StoredRow.contents_ofContract, reread_titled]
  have hmember : (Edge.ofLink bondLink).attaches "reader" membership = false := by decide
  have hlinked : bonded.linked "reader" membership = .ok [] := by
    simp [Kernel.linked, Store.linked, Store.linkedRows, bonded_eq.2, hmember]
  refine mask_reader (actor_reader hcontract hlinked) ?_ ?_ rfl
  · simp [Store.versions, bonded_eq.2, reread_titled, hversion, hbond, hcard]
  · simp [Store.versions, bonded_eq.2, hbond, hcard]

theorem prepare_bonded :
    ((prepare titledMask (offer "card")).run bonded).1 = .ok (mine "card") := by
  have hsound := bonded_reachable.sound
  have hfind : bonded.store.find? "card" (.exact Version.initial) = some bondedCard := by
    have hversion : "1.0.0" = Version.initial.text := by decide
    refine hsound.store.versioned?_eq_some.mpr ⟨?_, rfl, hversion⟩
    rw [contracts_bonded]
    exact List.mem_cons_of_mem _ List.mem_cons_self
  have hschema : bonded.typeSchema (mine "card").type = .ok (.bool true) :=
    typeSchema_eq (r := ⟨"card", .exact Version.initial⟩) rfl hfind rfl
  have haccepts : bonded.accepts titledMask (mine "card").toJson = .ok true := by
    rw [hsound.accepts_eq compiles_titledMask]
    rfl
  have hcheck : bonded.checkPrepared titledMask (mine "card") = .ok (mine "card") := by
    rw [checkPrepared, hschema, haccepts]
    rfl
  exact prepare_ok (c := { mine "card" with type := "card" }) (by decide +kernel) hcheck

/-- A replacement takes the stamp off the card, and the link stays. -/
theorem card_unstamped :
    let after := (replaceFor "reader" (offer "card")).run bonded
    Reachable (guarded titled) ∧ card ∈ (guarded titled).store.contracts
      ∧ (write .insert bond).run (guarded titled) = (.ok bond, bonded)
      ∧ Link.ofContract? bond = some bondLink
      ∧ bonded.store.Stamped "card" "likes"
      ∧ (∃ written, after.1 = .ok written) ∧ after.2.store.edges = bonded.store.edges
      ∧ after.2.store.Has "card" ∧ ¬after.2.store.Stamped "card" "likes" := by
  have hsound := bonded_reachable.sound
  have hslug (d : Contract) (hd : d ∈ bonded.store.contracts) :
      d.slug ≠ (mine "card").slug := by
    rw [contracts_bonded] at hd
    simp only [List.mem_cons, List.not_mem_nil, or_false] at hd
    rcases hd with rfl | rfl | rfl
    · exact (by decide : "bond" ≠ "mine")
    · exact (by decide : "card" ≠ "mine")
    · exact (by decide : "role-reader" ≠ "mine")
  have hcanonical : Store.canonical (mine "card") = .ok (mine "card") :=
    Store.canonical_first rfl rfl rfl rfl
  have hcheck : bonded.checkReplaced titledMask (mine "card") = .ok () :=
    (hsound.checkReplaced_ok hcanonical).mpr fun d hd hsame => absurd hsame (hslug d hd)
  have hfree : bonded.store.versioned? (mine "card").slug (mine "card").version = none :=
    Option.eq_none_iff_forall_ne_some.mpr fun d hd =>
      have hfound := hsound.store.versioned?_eq_some.mp hd
      hslug d hfound.1 hfound.2.1
  have hold : bonded.store.existing? (mine "card") = some bondedCard := by
    refine hsound.store.existing?_eq_some.mpr ⟨?_, .inr ⟨hfree, rfl⟩⟩
    rw [contracts_bonded]
    exact List.mem_cons_of_mem _ List.mem_cons_self
  obtain ⟨written, hresult⟩ := hsound.replaceFor_ok mask_bonded prepare_bonded hcanonical hcheck
  rcases replaceFor_store bonded "reader" (offer "card") with
    ⟨⟨e, herror⟩, -⟩ | ⟨mask, c, written', store, hmask, hc, -, hwrite, hleft⟩
  · cases hresult.symm.trans herror
  obtain rfl := Except.ok.inj (mask_bonded.symm.trans hmask)
  obtain rfl := Except.ok.inj (prepare_bonded.symm.trans hc)
  obtain ⟨t, hover, hrows, hedges⟩ := Store.write_over hcanonical hold
    (ofContract?_of_card rfl)
  obtain ⟨rfl, rfl⟩ := Prod.mk.inj (Except.ok.inj (hwrite.symm.trans hover))
  have hrow : Dict.find? ((replaceFor "reader" (offer "card")).run bonded).2.store.rows "card"
      = some (.ofContract (Store.replacing bonded.supply.next.now (mine "card")
        bondedCard)) := by
    rw [hleft.2.1, hrows]
    exact find?_put_self _ _
  refine ⟨guarded_reachable titled, card_mem_guarded reread_titled, bonded_eq.1,
    ofContract?_bond, ⟨_, row_bonded, List.mem_singleton_self _⟩,
    ⟨written, hresult⟩, hleft.2.2.trans hedges, ?_, ?_⟩
  · exact ⟨_, hrow⟩
  · rw [stamped_iff_of_row hrow]
    exact List.not_mem_nil

end Kernel

end LinkedContracts
