import LinkedContracts.Proofs.Kernel.Patched
import LinkedContracts.Proofs.Mask
import LinkedContracts.Proofs.Patch.Kept
import LinkedContracts.Proofs.Store.Replaced
import LinkedContracts.Proofs.Store.Rows

/-! # What a patch leaves hidden

    A patch is made of what a session sees and goes to work on the whole
    contract.  The properties that the mask forbids are guarded and stay as
    they were.  What is hidden below a property that may be seen stays unless
    the patch writes to it: to the hidden key, to something inside it, or over
    something visible that holds it.

    The guard compares what is seen before with what is seen in the end.
    Nothing is said here of patches that add a forbidden property and take it
    away again. -/

namespace LinkedContracts

namespace PatchOperation

/-- What touches a part touches the property that it is in. -/
theorem Touches.property {op : PatchOperation} {key : String} {rest : List String}
    (h : op.Touches (key :: rest)) : op.Touches [key] := by
  obtain ⟨hskip, path, hpath, ts, hparse, hne, hmeets⟩ := h
  refine ⟨hskip, path, hpath, ts, hparse, hne, ?_⟩
  cases ts with
  | nil => exact absurd rfl hne
  | cons t ts =>
      have ht : t = key := by
        rcases hmeets with hmeets | hmeets
        · exact (List.cons_prefix_cons.mp hmeets).1
        · exact (List.cons_prefix_cons.mp hmeets).1.symm
      rw [ht]
      exact .inr (List.cons_prefix_cons.mpr ⟨rfl, List.nil_prefix⟩)

end PatchOperation

namespace Kernel

variable {k : Kernel} {session reference : String} {mask : Schema}
  {r : Reference} {operations : List PatchOperation} {part : List String}

/-- What is seen in the place of a contract is a redacted contract that the
    mask shows. -/
theorem Sound.seen_of_visible [TextLibrary] (hk : k.Sound) {id : String} {view : Json}
    (h : k.visible mask id = .ok (some view)) :
    ∃ c ∈ k.store.contracts, k.shows mask c = true
      ∧ view = Mask.redact c.toRow mask := by
  have hcompiles := compiles_of_visible h
  rw [hk.visible_eq hcompiles] at h
  obtain ⟨row, hrow, rfl⟩ := Option.map_eq_some_iff.mp (Except.ok.inj h)
  obtain ⟨c, hc, rfl⟩ := List.mem_map.mp (Query.mem_sort.mp (List.mem_of_find?_eq_some hrow))
  refine ⟨c, hc, ?_, rfl⟩
  have hfinds := List.find?_some hrow
  exact ((hk.finds_id hcompiles).mp hfinds).1

/-- A patch that may be made leaves no property that the mask forbids where
    there was none. -/
theorem absent_of_allowed {before after : Dict Json} {key : String}
    (h : forbiddenChange mask (.object before) (.object after) = none)
    (hforbids : Mask.forbids mask key = true)
    (hbefore : Dict.find? before key = none) : Dict.find? after key = none := by
  cases hafter : Dict.find? after key with
  | none => rfl
  | some v =>
      have hkey : key ∈ Dict.keys before ++ Dict.keys after :=
        List.mem_append_right _ (List.mem_map_of_mem (Dict.mem_of_find? hafter))
      have hdiffer := List.find?_eq_none.mp h key hkey
      simp [differAt, hbefore, hafter, hforbids] at hdiffer

/-- How a patch may write to a part that is hidden: it is in a property that may be
    seen, and an operation touches it. -/
structure Overwrites (mask : Schema) (operations : List PatchOperation)
    (part : List String) : Prop where
  seen : ∀ key, part.head? = some key → Mask.forbids mask key = false
  touches : ∃ op ∈ operations, op.Touches part

/-- Whether operations add a property and take it away again. -/
def Undoes (operations : List PatchOperation) (key : String) : Prop :=
  ∃ a b, [a, b].Sublist operations ∧ a.Adds key ∧ b.Takes key

/-- What is done to a forbidden property is undone. -/
theorem Views.undoes [TextLibrary] {view patched : Json} {key : String} {rest : List String}
    {c : Contract} (h : k.Views mask operations view patched)
    (hview : view = Mask.redact c.toRow mask) (hkey : key ≠ "links")
    (htouches : ∃ op ∈ operations, op.Touches (key :: rest))
    (hforbids : Mask.forbids mask key = true) : Undoes operations key := by
  subst hview
  have hbefore : Dict.find? (Mask.redactRow c.rowFields mask) key = none := by
    rw [Mask.find?_redactRow _ _ hkey, if_pos hforbids]
  obtain ⟨fields, rfl⟩ := Patch.object_steps h.apply
  have hafter := absent_of_allowed h.allowed hforbids hbefore
  rcases Patch.adds_then_takes h.apply hbefore hafter with hnone | hundone
  · obtain ⟨op, hop, htouches⟩ := htouches
    exact absurd htouches.property (hnone op hop)
  · exact hundone

/-- The document of a contract says of it what its row says. -/
theorem part?_toJson {c : Contract} {key : String} {rest : List String}
    (hkey : key ≠ "links") :
    c.toJson.part? (key :: rest) = c.toRow.part? (key :: rest) := by
  rw [Contract.toJson, Contract.toRow, Json.part?_cons, Json.part?_cons,
    Dict.find?_insert_of_ne _ _ (Ne.symm hkey)]

theorem ofJson?_of_readPatched {patched : Json} {c : Contract}
    (h : readPatched patched = .ok c) : Contract.ofJson? patched = some c := by
  rw [readPatched] at h
  split at h
  · cases h
  next c' hc' =>
    cases hcheck : c'.checkIdentity with
    | error e => rw [hcheck] at h; cases h
    | ok _ =>
        rw [hcheck] at h
        rw [hc', ← Except.ok.inj h]

/-- A part that no operation touches is written as it was read. -/
theorem Works.part?_written [TextLibrary] (hk : k.Sound) {full c written : Contract}
    {view : Json} {p : Patched} (h : k.Works mask r operations full view p)
    (hc : p.contract = some c) {now : Instant} {store : Store}
    (hwrite : k.store.write now .upsert c = .ok (written, store))
    (hid : written.id = full.id) {key : String} {rest : List String} {v : Json}
    (hpart : full.toRow.part? (key :: rest) = some v) (hkey : key ≠ "updated_at")
    (huntouched : ∀ op ∈ operations, ¬op.Touches (key :: rest)) :
    written.toRow.part? (key :: rest) = some v := by
  have hfull := Store.mem_of_find? h.named
  obtain ⟨patched, happly, hread⟩ := h.writes c hc
  obtain ⟨fields, rfl⟩ := Patch.object_steps happly
  obtain ⟨e, he, rfl⟩ := hk.store.replacing_of_write hwrite hfull hid
  have hlinks : key ≠ "links" := by
    rintro rfl
    exact absurd (Store.column_of_part? hpart) (by decide)
  have hlinked : Dict.find? fields "linked_at"
      = some (Contract.instantsJson full.linkedAt) := by
    rw [← Json.part?_singleton, Patch.part?_steps happly fun op _ =>
      PatchOperation.not_touches_immutable (by decide), part?_toJson (by decide)]
    rfl
  have hsame : (Json.object fields).part? (key :: rest) = some v := by
    rw [Patch.part?_steps happly huntouched, part?_toJson hlinks, hpart]
  have hcontract := ofJson?_of_readPatched hread
  exact Store.part?_replacing (hk.store.kept_of_mem hfull) hcontract hlinked he hkey
    hpart hsame

/-- Whether a patch writes a link that ends at a contract. -/
def Relinks [TextLibrary] (k : Kernel) (mask : Schema) (reference : String) (r : Reference)
    (operations : List PatchOperation) (id : String) : Prop :=
  ∃ p c written store, k.patched mask reference r operations = .ok p
    ∧ p.contract = some c
    ∧ k.store.write k.supply.now .upsert c = .ok (written, store)
    ∧ Store.Links written id

/-- A part of a contract that the mask hides is after a patch what it was before,
    but for the time of the update: always if it is in a property that the mask
    forbids, and otherwise unless the patch writes to it.  Left out are patches that
    add the forbidden property and take it away again. -/
theorem hidden_of_patch [TextLibrary] (operations : List PatchOperation) (hk : Reachable k)
    (hmask : k.mask session = .ok mask)
    (href : Reference.parse reference = .ok r) {full : Contract}
    (hfull : k.store.find? r.slug r.version = some full)
    (hhides : Mask.Hides mask full part) (htime : part.head? ≠ some "updated_at")
    (hundone : ∀ key, part.head? = some key → Mask.forbids mask key = true →
      ¬Undoes operations key) :
    let after := ((patchFor session reference operations).run k).2
    ∃ row, Dict.find? after.store.rows full.id = some row
      ∧ (Dict.find? k.store.rows full.id = some row
        ∨ row.written.toRow.part? part = full.toRow.part? part
        ∨ Overwrites mask operations part
        ∨ part.head? = some "linked_at"
          ∧ Relinks k mask reference r operations full.id) := by
  have hsound := hk.sound
  have hmem := Store.mem_of_find? hfull
  obtain ⟨old, hold, -⟩ := Store.row_of_contract?
    (hsound.store.contract?_eq_some.mpr ⟨hmem, rfl⟩)
  have hold := hsound.store.sorted.find?_eq_some.mpr hold
  rcases patchFor_store k session reference operations with
    hsame | ⟨r', mask', p, c, written, store, href', hmask', hp, hc, hwrite, hleft⟩
  · exact ⟨old, hsame.1 ▸ hold, .inl hold⟩
  obtain rfl := Except.ok.inj (href.symm.trans href')
  obtain rfl := Except.ok.inj (hmask.symm.trans hmask')
  obtain ⟨row, hrow⟩ := hsound.store.row_of_write hwrite hmem
  refine ⟨row, hleft.2.1 ▸ hrow.found, ?_⟩
  obtain ⟨key, rest, rfl⟩ : ∃ key rest, part = key :: rest := by
    cases part with
    | nil => exact absurd ((Json.part?_nil _).symm.trans hhides.2) nofun
    | cons key rest => exact ⟨key, rest, rfl⟩
  have hkey : key ≠ "updated_at" := fun h => htime (h ▸ rfl)
  obtain ⟨v, hv⟩ := Option.isSome_iff_exists.mp hhides.1
  rcases hrow.cases with hkept | ⟨hid, rfl⟩ | ⟨hlinks, linkedAt, rfl⟩
  · exact .inl hkept
  · right
    obtain ⟨full', view, hworks⟩ := hsound.works_of_patched hp
    obtain rfl := Option.some.inj (hfull.symm.trans hworks.named)
    by_cases htouches : ∃ op ∈ operations, op.Touches (key :: rest)
    · refine .inr (.inl ⟨?_, htouches⟩)
      rintro key' ⟨⟩
      refine Bool.eq_false_iff.mpr fun hforbids => hundone key rfl hforbids ?_
      rcases hworks.views with ⟨-, -, hnone⟩ | hviews
      · rw [hc] at hnone
        cases hnone
      obtain ⟨d, -, -, hview⟩ := hsound.seen_of_visible hworks.visible
      refine hviews.undoes hview ?_ htouches hforbids
      rintro rfl
      exact absurd (Store.column_of_part? hv) (by decide)
    · left
      rw [hv]
      exact hworks.part?_written hsound hc hwrite hid hv hkey fun op hop htouch =>
        htouches ⟨op, hop, htouch⟩
  · right
    by_cases hlinked : key = "linked_at"
    · subst hlinked
      exact .inr (.inr ⟨rfl, p, c, written, store, hp, hc, hwrite, hlinks⟩)
    · left
      rw [StoredRow.written_ofContract, Contract.toRow, Contract.toRow,
        Json.part?_cons, Json.part?_cons, Store.find?_stamped full linkedAt hlinked]

/-! ## Readers who do not see a secret -/

/-- A role that may read all but the secrets below the properties of
    contracts. -/
def discreet : Json :=
  .object
    [("additionalProperties", .object
      [("properties", .object [("secret", .bool false)])])]

/-- The schema of the role. -/
def discreetSchema : Schema :=
  .node
    { additionalProperties := some
        (.node { properties := some [("secret", .bool false)] }) }

/-- The mask of the reader. -/
def discreetMask : Schema :=
  .conj [.disj [discreetSchema], Mask.ofMarkers ["role-reader"]]

theorem reread_discreet : (reader discreet).reread = some (reader discreet) :=
  reread_reader rfl

theorem mask_discreet : (guarded discreet).mask "reader" = .ok discreetMask :=
  mask_guarded reread_discreet rfl

theorem hides_secret : Mask.Hides discreetMask card ["data", "secret"] :=
  ⟨by decide, by decide +kernel⟩

/-- The secret of the card stays when the card is renamed. -/
theorem hidden_of_patch_rename :
    ∃ row, Dict.find? ((patchFor "reader" "card@1.0.0" rename).run
        (guarded discreet)).2.store.rows "card" = some row
      ∧ row.written.toRow.part? ["data", "secret"] = some (.string "kept") := by
  have href : Reference.parse "card@1.0.0" = .ok ⟨"card", .exact Version.initial⟩ :=
    rfl
  have hseen : ∀ key, ["data", "secret"].head? = some key →
      Mask.forbids discreetMask key = true → ¬Undoes rename key := by
    rintro _ ⟨⟩ hforbids
    exact absurd hforbids (by decide +kernel)
  obtain ⟨row, hrow, hcases⟩ := hidden_of_patch rename (guarded_reachable discreet)
    mask_discreet href (find?_card reread_discreet) hides_secret (by decide)
    hseen
  refine ⟨row, hrow, ?_⟩
  rcases hcases with hkept | hsame | ⟨-, op, hop, htouches⟩ | ⟨hlinked, -⟩
  · rw [rows_guarded] at hkept
    obtain rfl := Option.some.inj hkept
    rfl
  · exact hsame
  · obtain rfl := List.mem_singleton.mp hop
    obtain ⟨-, path, hpath, ts, hparse, -, hmeets⟩ := htouches
    obtain rfl := List.mem_singleton.mp hpath
    obtain rfl : ["name"] = ts := Option.some.inj hparse
    rcases hmeets with h | h <;> exact absurd h (by decide)
  · exact absurd hlinked (by decide)

/-- The patch that replaces what is seen of the data of the card. -/
def clear : List PatchOperation := [.replace "/data" (.object [])]

/-- The card without its secret. -/
def cleared : Contract := { card with data := .object [] }

theorem compiles_discreetMask : discreetMask.Compiles :=
  Validator.ofSchema_ok.mp ⟨_, rfl⟩

/-- The reader who does not see secrets sees the rest of the card. -/
theorem visible_card_discreet :
    (guarded discreet).visible discreetMask "card"
      = .ok (some (Mask.redact card.toRow discreetMask)) := by
  refine visible_card reread_discreet (by decide) ?_
  rw [(guarded_reachable discreet).sound.shows_eq compiles_discreetMask]
  rfl

theorem views_clear :
    (guarded discreet).Views discreetMask clear
      (Mask.redact card.toRow discreetMask) (Mask.redact card.toRow discreetMask) :=
  (guarded_reachable discreet).sound.views_of_meets compiles_discreetMask (by decide +kernel)
    (by decide +kernel) (by decide +kernel)

theorem alters_clear : Alters clear cleared cleared :=
  ⟨rfl, by decide +kernel, by decide +kernel, by decide +kernel, ⟨rfl, rfl⟩, ⟨rfl, rfl⟩,
    by decide +kernel⟩

/-- A patch that changes nothing that is seen takes the secret away. -/
theorem clears_hidden_secret :
    Reachable (guarded discreet)
      ∧ (guarded discreet).mask "reader" = .ok discreetMask
      ∧ (guarded discreet).store.find? "card" (.exact Version.initial) = some card
      ∧ Mask.Hides discreetMask card ["data", "secret"]
      ∧ ((patchFor "reader" "card@1.0.0" clear).run (guarded discreet)).1
        = .ok (Mask.redact card.toRow discreetMask)
      ∧ ∃ after, ((patchFor "reader" "card@1.0.0" clear).run
          (guarded discreet)).2.store.contract? "card" = some after
        ∧ after.toRow.part? ["data", "secret"] = none := by
  have hafter : (Store.replacing ⟨2, 0⟩ cleared card).reread
      = some (Store.replacing ⟨2, 0⟩ cleared card) :=
    Contract.reread_eq rfl rfl rfl parse?_start rfl rfl parse?_next
  obtain ⟨hresult, hleft⟩ := patch_over reread_discreet mask_discreet
    visible_card_discreet views_clear alters_clear
    (existing?_card reread_discreet rfl rfl) (by decide +kernel) hafter
  exact ⟨guarded_reachable _, mask_discreet, find?_card reread_discreet,
    hides_secret, hresult, _, hleft, rfl⟩

end Kernel

end LinkedContracts
