import LinkedContracts.Proofs.Kernel.Guarded

/-! # A store with a link

    The reader and the card with a link between them: the reader likes the
    card.  The link was written before the contracts it connects, so that
    neither has a stamp of it. -/

namespace LinkedContracts

/-- Writing a new link between contracts that are not there yet keeps the link
    and puts its contract. -/
theorem Store.write_loose {s : Store} {c : Contract} {l : Link}
    (hc : canonical c = .ok c) (hnew : s.existing? c = none)
    (hlink : Link.ofContract? c = some l) (hends : s.endpoints (some l) = [])
    (now : Instant) (mode : WriteMode) :
    s.write now mode c = .ok (c, { (s.put c).putLink l with
      pending := s.pending
        ++ [⟨c.id, .insert, none, some (((s.put c).putLink l).image c)⟩] }) := by
  rw [write_fresh mode hc hnew]
  simp only [writeOver, hlink, hends]
  rfl

namespace Kernel

/-- The link of the reader to the card. -/
def liking : Contract where
  id := "liking"
  slug := "liking"
  type := "link@1.0.0"
  version := "1.0.0"
  name := some "likes"
  active := true
  tags := []
  markers := []
  requires := []
  capabilities := []
  links := []
  linkedAt := []
  createdAt := ⟨0, 0⟩
  updatedAt := none
  data := .object
    [("from", .string "reader"), ("inverseName", .string "is liked by"),
     ("to", .string "card")]

theorem reread_liking : liking.reread = some liking :=
  Contract.reread_eq rfl rfl rfl parse?_start rfl rfl nofun

/-- The link as it is kept. -/
def likingEdge : Edge := ⟨"likes", "is liked by", "reader", "card"⟩

/-- The kernel after the link was written. -/
def liked : Kernel := ((write .insert liking).run empty).2

/-- The kernel after the link and the reader were written. -/
def met (read : Json) : Kernel := ((write .insert (reader read)).run liked).2

/-- The kernel after the link, the reader and the card were written. -/
def tied (read : Json) : Kernel :=
  ((write .insert card).run ((write .insert (reader read)).run liked).2).2

theorem met_reachable [TextLibrary] (read : Json) : Reachable (met read) :=
  have hempty : create {} empty.supply = .ok empty := rfl
  .ran (.write _ _) (.ran (.write _ _) (.created hempty))

theorem tied_reachable [TextLibrary] (read : Json) : Reachable (tied read) :=
  .ran (.write _ _) (met_reachable read)

theorem depth_liked : liked.depth = 0 := depth_write _ _ _

theorem depth_met (read : Json) : (met read).depth = 0 := by
  rw [met, depth_write, depth_liked]

theorem liked_eq : ∃ announced, liked = { empty with
    supply := empty.supply.next
    store := ⟨[("liking", .ofContract liking)], [("liking", likingEdge)], []⟩
    announced } := by
  have hlink : Link.ofContract? liking = some ⟨"liking", "likes", "is liked by",
      "reader", "card", true, ⟨0, 0⟩⟩ := rfl
  rw [liked, write_run rfl (Store.write_loose rfl rfl hlink rfl _ _)]
  exact ⟨_, rfl⟩

theorem met_eq (read : Json) : ∃ announced, met read = { empty with
    supply := empty.supply.next.next
    store := ⟨[("liking", .ofContract liking), ("reader", .ofContract (reader read))],
      [("liking", likingEdge)], []⟩
    announced } := by
  have hreader : "liking" < "reader" := by decide
  have hput : (⟨[("liking", .ofContract liking)], [("liking", likingEdge)], []⟩
      : Store).put (reader read)
        = ⟨[("liking", .ofContract liking), ("reader", .ofContract (reader read))],
          [("liking", likingEdge)], []⟩ := by
    simp [Store.put, Dict.insert, liking, reader, StoredRow.ofContract,
      String.lt_asymm hreader]
  obtain ⟨announced, hliked⟩ := liked_eq
  rw [met, hliked, write_new rfl (canonical_reader read) rfl
    (ofContract?_reader read)]
  dsimp only
  rw [hput]
  exact ⟨_, rfl⟩

/-- The store after the card was put. -/
theorem put_met (read : Json) :
    (met read).store.put card
      = ⟨[("card", .ofContract card), ("liking", .ofContract liking),
          ("reader", .ofContract (reader read))], [("liking", likingEdge)], []⟩ := by
  have hcard : "card" < "liking" := by decide
  obtain ⟨announced, hmet⟩ := met_eq read
  rw [hmet]
  simp [Store.put, Dict.insert, liking, reader, card, StoredRow.ofContract, hcard]

theorem existing?_met (read : Json) : (met read).store.existing? card = none := by
  obtain ⟨announced, hmet⟩ := met_eq read
  rw [hmet]
  rfl

/-- The card is the last to be written. -/
theorem tied_eq (read : Json) :
    tied read = { met read with
      supply := (met read).supply.next
      store := (met read).store.put card
      announced := (met read).announced
        ++ [⟨"card", .insert, none, some (((met read).store.put card).image card)⟩] } := by
  obtain ⟨announced, hmet⟩ := met_eq read
  have hpending : (met read).store.pending = [] := by rw [hmet]
  rw [tied, ← met, write_new (depth_met read) canonical_card (existing?_met read) rfl,
    hpending]
  simp only [put_met]
  rfl

theorem store_met (read : Json) :
    (met read).store
      = ⟨[("liking", .ofContract liking), ("reader", .ofContract (reader read))],
          [("liking", likingEdge)], []⟩ := by
  obtain ⟨announced, h⟩ := met_eq read
  rw [h]

theorem settings_met (read : Json) : (met read).settings = {} := by
  obtain ⟨announced, h⟩ := met_eq read
  rw [h]
  rfl

theorem store_tied (read : Json) :
    (tied read).store
      = ⟨[("card", .ofContract card), ("liking", .ofContract liking),
          ("reader", .ofContract (reader read))], [("liking", likingEdge)], []⟩ := by
  rw [tied_eq]
  exact put_met read

theorem settings_tied (read : Json) : (tied read).settings = {} := by
  rw [tied_eq]
  exact settings_met read

section

variable {read : Json} (hread : (reader read).reread = some (reader read))

include hread

theorem contracts_tied :
    (tied read).store.contracts = [card, liking, reader read] := by
  simp [Store.contracts, store_tied, reread_card, reread_liking, hread]

/-- The contracts linked in the store. -/
theorem linked_tied (id name : String) :
    (tied read).store.linked id name
      = if id = "reader" ∧ name = "likes" then [card]
        else if id = "card" ∧ name = "is liked by" then [reader read]
        else [] := by
  have hattaches : likingEdge.attaches id name
      = (decide (id = "reader" ∧ name = "likes")
        || decide (id = "card" ∧ name = "is liked by")) := by
    rw [Bool.eq_iff_iff]
    simp [Edge.attaches, likingEdge, @eq_comm _ _ id, @eq_comm _ _ name]
  have hcard : card.active = true := rfl
  have hreader : (reader read).active = true := rfl
  rw [Store.linked, Store.linkedRows, store_tied]
  simp only [List.filterMap_cons, List.filterMap_nil, hattaches]
  by_cases hfrom : id = "reader" ∧ name = "likes"
  · obtain ⟨rfl, rfl⟩ := hfrom
    simp [likingEdge, Edge.farEnd, Dict.find?, Option.filter, hcard, reread_card]
  by_cases hto : id = "card" ∧ name = "is liked by"
  · obtain ⟨rfl, rfl⟩ := hto
    simp [likingEdge, Edge.farEnd, Dict.find?, Option.filter, hread]
  · simp [hfrom, hto]

theorem contract?_tied : (tied read).store.contract? "reader" = some (reader read) := by
  simp [Store.contract?, store_tied, Dict.find?, hread]

theorem mask_tied {schema : Schema} (hschema : Schema.ofJson read = .ok schema) :
    (tied read).mask "reader"
      = .ok (.conj [.disj [schema], Mask.ofMarkers ["role-reader"]]) := by
  have hversion : Version.parse? "1.0.0" = some Version.initial := by decide
  have hcard : card.slug = "card" := rfl
  have hliking : liking.slug = "liking" := rfl
  have hlinked : (tied read).linked "reader" membership = .ok [] := by
    rw [Kernel.linked, linked_tied hread]
    simp [membership]
  refine mask_reader (actor_reader (contract?_tied hread) hlinked) ?_ ?_ hschema
  · simp [Store.versions, store_tied, hread, hversion, hcard, hliking]
  · simp [Store.versions, store_tied, hcard, hliking]

/-- The reader may read the same before the card is written. -/
theorem mask_met {schema : Schema} (hschema : Schema.ofJson read = .ok schema) :
    (met read).mask "reader"
      = .ok (.conj [.disj [schema], Mask.ofMarkers ["role-reader"]]) := by
  have hversion : Version.parse? "1.0.0" = some Version.initial := by decide
  have hliking : liking.slug = "liking" := rfl
  have hcontract : (met read).store.contract? "reader" = some (reader read) := by
    simp [Store.contract?, store_met, Dict.find?, hread]
  have hmember : likingEdge.attaches "reader" membership = false := by decide
  have hlinked : (met read).linked "reader" membership = .ok [] := by
    simp [Kernel.linked, Store.linked, Store.linkedRows, store_met, hmember]
  refine mask_reader (actor_reader hcontract hlinked) ?_ ?_ hschema
  · simp [Store.versions, store_met, hread, hversion, hliking]
  · simp [Store.versions, store_met, hliking]

end

end Kernel

end LinkedContracts
