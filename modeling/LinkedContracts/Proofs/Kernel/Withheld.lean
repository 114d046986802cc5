import LinkedContracts.Proofs.Feed
import LinkedContracts.Proofs.Kernel.Hidden

/-! # What is withheld from sessions

    A session is handed contracts in five ways: by queries, by look-ups by id
    and by slug, by patches, and by the events of its feeds.  None of them has
    a property that the mask of the session forbids, nor does any contract
    that is shown with them.

    All but the patches hand out redacted documents.  What a patch hands out
    was edited after it was redacted: that the edits put nothing back is the
    check of the patch, and that they show no other contracts is that `links`
    is not for patches to change. -/

namespace LinkedContracts

namespace Mask

open Query (Shown)

variable {mask : Schema} {c d : Json}

/-- Whether a contract is without the properties that a mask forbids.  Its
    links are contracts of their own. -/
def Withholds (mask : Schema) (c : Json) : Prop :=
  ∀ key, key ≠ "links" → forbids mask key = true → c.field? key = none

/-- Whether a contract and all that is shown with it, at any depth, are
    without the properties that a mask forbids. -/
structure Covers (mask : Schema) (c : Json) : Prop where
  own : Withholds mask c
  shown : ∀ linkType d, Shown c linkType d → Withholds mask d

theorem withholds_redact (c : Json) (mask : Schema) : Withholds mask (redact c mask) := by
  intro key hkey hforbids
  rw [field?_redact c mask hkey, if_pos hforbids]

/-- Redaction reaches all that is shown. -/
theorem covers_redact (c : Json) (mask : Schema) : Covers mask (redact c mask) := by
  constructor
  case own => exact withholds_redact c mask
  case shown =>
    intro linkType d hshown
    obtain ⟨e, -, rfl⟩ := shown_of_redact hshown
    exact withholds_redact e mask

/-- What is shown with a contract depends on its links alone. -/
theorem shown_of_links (hlinks : d.field? "links" = c.field? "links")
    {linkType : String} {e : Json} (h : Shown d linkType e) : Shown c linkType e := by
  have hlists {linkType : String} {e : Json} (h : Query.Lists d linkType e) :
      Query.Lists c linkType e := by
    obtain ⟨links, es, hfield, hes, he⟩ := h
    exact ⟨links, es, hlinks ▸ hfield, hes, he⟩
  cases h with
  | direct h => exact .direct (hlists h)
  | further h hbelow => exact .further (hlists h) hbelow

theorem Covers.of_links (h : Covers mask c)
    (hlinks : d.field? "links" = c.field? "links") (hown : Withholds mask d) :
    Covers mask d where
  own := hown
  shown linkType _ hshown := h.shown linkType _ (shown_of_links hlinks hshown)

end Mask

namespace Kernel

open Mask (Covers)

variable {k : Kernel} {mask : Schema} {session reference : String} {query : Json}
  {options : QueryOptions} {operations : List PatchOperation} {c : Json}

/-! ## Queries and look-ups -/

variable [TextLibrary]

/-- Results of queries are redacted. -/
theorem covers_of_results {schema : Schema} {select : Option Selection}
    {results : List Json} (h : k.results mask schema select options = .ok results)
    (hc : c ∈ results) : Covers mask c := by
  obtain ⟨q, -, h⟩ := except_bind_ok h
  obtain ⟨rows, -, h⟩ := except_bind_ok h
  obtain rfl := Except.ok.inj h
  obtain ⟨row, -, rfl⟩ := List.mem_map.mp hc
  exact Mask.covers_redact _ mask

theorem covers_of_visible {id : String} (h : k.visible mask id = .ok (some c)) :
    Covers mask c := by
  rw [visible] at h
  cases hresults : k.results mask (withValues "id" [("id", id)]) (some .empty)
      { limit := some 1 } with
  | error e => rw [hresults] at h; cases h
  | ok results =>
      rw [hresults] at h
      exact covers_of_results hresults (List.mem_of_getLast? (Except.ok.inj h))

theorem covers_of_getById {id : String} (hmask : k.mask session = .ok mask)
    (h : k.getById session id = .ok (some c)) : Covers mask c := by
  rw [getById] at h
  split at h
  · cases h
  · rw [hmask] at h
    exact covers_of_visible h

theorem covers_of_getBySlug (hmask : k.mask session = .ok mask)
    (h : k.getBySlug session reference = .ok (some c)) : Covers mask c := by
  obtain ⟨r, -, h⟩ := except_bind_ok h
  obtain ⟨mask', hmask', h⟩ := except_bind_ok h
  obtain rfl : mask = mask' := Except.ok.inj (hmask.symm.trans hmask')
  obtain ⟨results, hresults, h⟩ := except_bind_ok h
  exact covers_of_results hresults (List.mem_of_getLast? (Except.ok.inj h))

/-! ## Patches -/

/-- What a session makes of a redacted contract is covered, as it may neither
    add what the mask forbids nor change links. -/
theorem Views.covers {d : Contract} {patched : Json}
    (h : k.Views mask operations (Mask.redact d.toRow mask) patched) :
    Covers mask patched := by
  have hredacted := Mask.covers_redact d.toRow mask
  obtain ⟨changed, rfl⟩ := Patch.object_steps h.apply
  -- links are immutable, so what is shown is what redaction left
  have hlinks : (Json.object changed).part? ["links"]
      = (Mask.redact d.toRow mask).part? ["links"] :=
    Patch.part?_steps h.apply fun op _ => PatchOperation.not_touches_immutable (by decide)
  rw [Json.part?_singleton, Contract.toRow, Mask.redact, Json.part?_singleton] at hlinks
  refine hredacted.of_links hlinks ?_
  intro key hkey hforbids
  exact absent_of_allowed h.allowed hforbids (hredacted.own key hkey hforbids)

theorem Sound.covers_of_patched (hk : k.Sound) {r : Reference} {p : Patched}
    (h : k.patched mask reference r operations = .ok p) : Covers mask p.view := by
  obtain ⟨full, view, hworks⟩ := hk.works_of_patched h
  obtain ⟨d, -, -, rfl⟩ := hk.seen_of_visible hworks.visible
  rcases hworks.views with ⟨-, hview, -⟩ | hviews
  · -- without operations the view is handed out as it was redacted
    rw [hview]
    exact Mask.covers_redact _ mask
  · exact hviews.covers

theorem Sound.covers_of_patchFor (hk : k.Sound) (hmask : k.mask session = .ok mask)
    (h : ((patchFor session reference operations).run k).1 = .ok c) :
    Covers mask c := by
  cases href : Reference.parse reference with
  | error e =>
      rw [patchFor_run, href] at h
      cases h
  | ok r =>
      obtain ⟨p, rfl, hsucceeds⟩ := patchFor_ok hmask href h
      exact hk.covers_of_patched hsucceeds.patched

end Kernel

/-! ## Feeds -/

/-- The contracts that an event carries. -/
def FeedEvent.contracts : FeedEvent → List Json
  | insert _ c | update _ c => [c]
  | dataset _ cs => cs
  | delete _ | unmatch _ | failed _ | closed => []

namespace Feed

open Mask (Covers)

variable [TextLibrary]
variable {k : Kernel} {f g : Feed} {request : FeedRequest} {event : FeedEvent}
  {c : Json}

/-- What becomes of a feed, whatever it is asked to do and when. -/
inductive Became (g : Feed) : Feed → Prop where
  | opened : Became g g
  | handled {f : Feed} (h : Became g f) (k : Kernel) (request : FeedRequest) :
      Became g (f.handle k request).2

theorem Became.mask_eq (h : g.Became f) : f.mask = g.mask := by
  induction h with
  | opened => rfl
  | handled _ k request ih => rw [mask_handle, ih]

/-- What a feed reports is redacted by its mask. -/
theorem covers_of_handle (h : (f.handle k request).1 = some event)
    (hc : c ∈ event.contracts) : Covers f.mask c := by
  cases request with
  | change ch =>
      rw [handle] at h
      cases hclassify : f.classify k ch with
      | error e =>
          rw [hclassify] at h
          obtain rfl := Option.some.inj h
          cases hc
      | ok result =>
          obtain ⟨reported, f'⟩ := result
          rw [hclassify] at h
          obtain rfl : reported = some event := h
          rcases classify_cases hclassify with
            ⟨hnone, -⟩ | ⟨hgone, -⟩ | ⟨image, shown, -, -, hmatch, -⟩
          · cases hnone
          · -- what is gone is reported by its id
            simp only [List.mem_cons, List.not_mem_nil, or_false, reduceCtorEq,
              Option.some.injEq, false_or] at hgone
            rcases hgone with rfl | rfl <;> cases hc
          · have hshown : event.contracts = [Mask.redact shown f.mask] := by
              rw [Option.some.inj hmatch, matchEvent]
              split <;> rfl
            rw [hshown] at hc
            obtain rfl := List.mem_singleton.mp hc
            exact Mask.covers_redact shown f.mask
  | query id schema options =>
      rw [handle] at h
      cases hanswer : f.answer k id schema options with
      | error e =>
          rw [hanswer] at h
          obtain rfl := Option.some.inj h
          cases hc
      | ok result =>
          rw [hanswer] at h
          obtain ⟨q, -, hanswer⟩ := except_bind_ok hanswer
          obtain ⟨rows, -, hanswer⟩ := except_bind_ok hanswer
          obtain rfl := Except.ok.inj hanswer
          obtain rfl := Option.some.inj h
          obtain ⟨row, -, rfl⟩ := List.mem_map.mp hc
          exact Mask.covers_redact _ f.mask
  | follow schema options =>
      rw [handle] at h
      cases hfollow : f.follow k schema options with
      | error e =>
          rw [hfollow] at h
          obtain rfl := Option.some.inj h
          cases hc
      | ok f' => rw [hfollow] at h; cases h
  | close =>
      obtain rfl := Option.some.inj h
      cases hc

end Feed

namespace Kernel

variable {k : Kernel} {mask : Schema} {session : String} {c : Json}

/-! ## All that a session is handed -/

/-- The contracts that a session is handed at a kernel, or later by a feed
    that it opens there. -/
inductive Hands [TextLibrary] (k : Kernel) (session : String) : Json → Prop where
  | query {query : Json} {options : QueryOptions} {results : List Json} {c : Json}
      (h : k.query session query options = .ok results) (hc : c ∈ results) :
      Hands k session c
  | byId {id : String} {c : Json} (h : k.getById session id = .ok (some c)) :
      Hands k session c
  | bySlug {reference : String} {c : Json}
      (h : k.getBySlug session reference = .ok (some c)) : Hands k session c
  | patch {reference : String} {operations : List PatchOperation} {c : Json}
      (h : ((patchFor session reference operations).run k).1 = .ok c) :
      Hands k session c
  | event {query : Json} {options : QueryOptions} {g f : Feed} {l : Kernel}
      {request : FeedRequest} {event : FeedEvent} {c : Json}
      (hstart : Feed.start k session query options = .ok g) (hfeed : g.Became f)
      (h : (f.handle l request).1 = some event) (hc : c ∈ event.contracts) :
      Hands k session c

/-- No contract that a session is handed has a property that its mask
    forbids, nor has any contract that is shown with it, at any depth. -/
theorem covers_of_hands [TextLibrary] (hk : Reachable k) (hmask : k.mask session = .ok mask)
    (h : Hands k session c) : Mask.Covers mask c := by
  cases h with
  | query h hc =>
      obtain ⟨mask', hmask', h⟩ := except_bind_ok h
      obtain rfl : mask = mask' := Except.ok.inj (hmask.symm.trans hmask')
      obtain ⟨schema, -, hresults⟩ := except_bind_ok h
      exact covers_of_results hresults hc
  | byId h => exact covers_of_getById hmask h
  | bySlug h => exact covers_of_getBySlug hmask h
  | patch h => exact hk.sound.covers_of_patchFor hmask h
  | event hstart hfeed h hc =>
      obtain ⟨mask', hmask', hstart⟩ := except_bind_ok hstart
      obtain rfl : mask = mask' := Except.ok.inj (hmask.symm.trans hmask')
      obtain ⟨schema, -, hstart⟩ := except_bind_ok hstart
      obtain ⟨q, -, hstart⟩ := except_bind_ok hstart
      obtain rfl := Except.ok.inj hstart
      have hcovers := Feed.covers_of_handle h hc
      rwa [hfeed.mask_eq] at hcovers

/-- What the reader is handed by a patch of the card is covered. -/
theorem covers_of_hands_rename : ∃ c, Hands (guarded anonymous) "reader" c
    ∧ c.field? "name" = some (.string "Renamed") ∧ Mask.Covers anonymousMask c := by
  have hpatched := patch_puts reread_anonymous mask_anonymous visible_card_anonymous
    views_rename alters_rename (existing?_card reread_anonymous rfl rfl)
    (by decide +kernel)
  have hhands := Hands.patch hpatched.1
  exact ⟨_, hhands, rfl,
    covers_of_hands (guarded_reachable anonymous) mask_anonymous hhands⟩

end Kernel

end LinkedContracts
