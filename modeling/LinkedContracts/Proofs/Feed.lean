import LinkedContracts.Feed
import LinkedContracts.Proofs.Kernel.Linked
import LinkedContracts.Proofs.Query.Images
import LinkedContracts.Proofs.Store.Images

/-! # What feeds report

    A feed reports of a written contract what its query makes of the image
    that was announced.  That is the result a query would return for the
    contract, if the image is borne out by the store and the query compares
    no contract as a whole, but for one thing: a selection without links that
    takes the field `links`, as a selection of everything does, keeps the
    linked contracts of the image, where a row has none. -/

namespace LinkedContracts

namespace LinkSource

/-- The links of an image that the store bears out are those of the store. -/
theorem ofImage_eq {s : Store} {image : Json} {c : Contract}
    (h : s.Bears image c) :
    ofImage image (.known s.rowsLinked) = .known s.rowsLinked := by
  obtain ⟨-, links, rfl, hshown⟩ := h
  funext parent linkType
  have hid : Dict.find? (Dict.insert c.rowFields "links"
      (Contract.linksJson links)) "id" = some (.string c.id) := by
    rw [Dict.find?_insert_of_ne _ _ (by decide)]
    rfl
  have hlinks : Dict.find? (Dict.insert c.rowFields "links"
      (Contract.linksJson links)) "links"
      = some (.object (Dict.mapValues Json.array links)) :=
    Dict.find?_insert_self _ _ _
  have hfield (d : Dict Json) (key : String) :
      (Json.object d).field? key = Dict.find? d key := rfl
  rw [ofImage, hfield, hfield, hid, hlinks]
  cases hparent : parent.field? "id" with
  | none => rfl
  | some a =>
      dsimp only
      split
      · next hsame =>
          obtain rfl : a = .string c.id := by
            cases a with
            | string id => exact congrArg _ (beq_iff_eq.mp hsame)
            | _ => cases hsame
          have hrows : s.rowsLinked parent linkType
              = (s.linked c.id linkType).map Contract.toRow := by
            rw [Store.rowsLinked, Json.stringField?, hparent]
            rfl
          have harray : (Option.map Json.array (Dict.find? links linkType)).bind
              Json.asArray? = Dict.find? links linkType := by
            cases Dict.find? links linkType <;> rfl
          rw [Dict.find?_mapValues, harray, hshown, known, hrows]
      · rfl

end LinkSource

namespace Kernel

variable {k : Kernel} {mask schema : Schema} {q : Query} {image : Json} {c : Contract}

/-! ## Pages of one contract -/

/-- The store links the same to an image as to the row. -/
theorem rowsLinked_showing (s : Store) (c : Contract) (shown : Json) :
    s.rowsLinked (.showing c.rowFields shown) = s.rowsLinked (.object c.rowFields) := by
  have hid : (Json.showing c.rowFields shown).stringField? "id" = some c.id := by
    show (Dict.find? (Dict.insert c.rowFields "links" shown) "id").bind _ = _
    rw [Dict.find?_insert_of_ne _ _ (by decide)]
    rfl
  funext linkType
  rw [Store.rowsLinked, Store.rowsLinked, hid]
  rfl

variable [TextLibrary]

/-- A query permits an image that the store bears out where it permits the
    contract. -/
theorem Sound.evaluate_image (hk : k.Sound)
    (hq : Query.compileMasked k.settings mask schema none {} = .ok q)
    (hweighs : ¬(Mask.merge mask schema).Weighs) (himage : k.store.Bears image c) :
    q.evaluate image (.ofImage image k.linkSource)
      = .ok (if k.permits mask schema c then
          some (q.resultOf k.store.rowsLinked image) else none) := by
  obtain ⟨limit, -, hcompile⟩ := compile_of_compileMasked hq
  have hmeets := hk.meets_merge_eq (compiles_of_compile hcompile) c
  rw [hk.linkSource, LinkSource.ofImage_eq himage]
  obtain ⟨-, links, rfl, -⟩ := himage
  exact (Query.evaluate_showing hcompile hweighs (rowsLinked_showing _ _ _)).trans
    (by rw [← hmeets]; rfl)

end Kernel

namespace Feed

variable {k : Kernel} {f f' g : Feed} {ch : Change} {event : Option FeedEvent}

/-! ## What a change comes to -/

/-- What comes of a change that is classified, its event and the feed
    afterwards, given whether the contract matched before. -/
inductive Classified (f : Feed) (k : Kernel) (ch : Change) (before : Bool) :
    Option FeedEvent → Feed → Prop where
  | deleted (hkind : ch.kind = .delete) :
      Classified f k ch before (if before then some (.delete ch.id) else none)
        (f.remove ch.id)
  /-- Nothing is known of the contract now. -/
  | unimaged (hkind : ch.kind ≠ .delete) (hafter : ch.after = none) :
      Classified f k ch before none f
  | shows (image shown : Json) (hkind : ch.kind ≠ .delete)
      (hafter : ch.after = some image) (hshown : f.shown k image = .ok (some shown)) :
      Classified f k ch before
        (some (matchEvent ch (Mask.redact shown f.mask))) (f.add ch.id)
  | hidden (image : Json) (hkind : ch.kind ≠ .delete)
      (hafter : ch.after = some image) (hshown : f.shown k image = .ok none) :
      Classified f k ch before (if before then some (.unmatch ch.id) else none)
        (if before then f.remove ch.id else f)

theorem classified_of_classify (h : f.classify k ch = .ok (event, f')) :
    ∃ before, f.matchedBefore k ch = .ok before
      ∧ f.Classified k ch before event f' := by
  obtain ⟨before, hbefore, h⟩ := except_bind_ok h
  refine ⟨before, hbefore, ?_⟩
  rw [classifyAfter] at h
  split at h
  next hkind =>
    obtain ⟨rfl, rfl⟩ := Prod.mk.inj (Except.ok.inj h)
    exact .deleted hkind
  next hkind =>
    split at h
    next hafter =>
      obtain ⟨rfl, rfl⟩ := Prod.mk.inj (Except.ok.inj h)
      exact .unimaged hkind hafter
    next image hafter =>
      obtain ⟨result, hshown, h⟩ := except_bind_ok h
      cases result with
      | some shown =>
          obtain ⟨rfl, rfl⟩ := Prod.mk.inj (Except.ok.inj h)
          exact .shows image shown hkind hafter hshown
      | none =>
          cases before with
          | true =>
              obtain ⟨rfl, rfl⟩ := Prod.mk.inj (Except.ok.inj h)
              exact .hidden image hkind hafter hshown
          | false =>
              obtain ⟨rfl, rfl⟩ := Prod.mk.inj (Except.ok.inj h)
              exact .hidden image hkind hafter hshown

/-! ## Feeds over time -/

/-- What becomes of a feed that does what it is asked to and is not asked to
    follow another query. -/
inductive Followed [TextLibrary] (g : Feed) : Feed → Prop where
  | opened : Followed g g
  | handled {f : Feed} (h : Followed g f) (k : Kernel) (request : FeedRequest)
      (hkeeps : ∀ schema options, request ≠ .follow schema options) :
      Followed g (f.handle k request).2

/-- What comes of a change: nothing; the contract is forgotten; or it is
    reported with what the feed shows of the image, redacted. -/
theorem classify_cases (h : f.classify k ch = .ok (event, f')) :
    (event = none ∧ f' = f)
      ∨ (event ∈ [none, some (.delete ch.id), some (.unmatch ch.id)]
        ∧ f' = f.remove ch.id)
      ∨ ∃ image shown, ch.after = some image ∧ f.shown k image = .ok (some shown)
        ∧ event = some (matchEvent ch (Mask.redact shown f.mask))
        ∧ f' = f.add ch.id := by
  obtain ⟨before, -, hclassified⟩ := classified_of_classify h
  cases hclassified with
  | deleted =>
      refine .inr (.inl ⟨?_, rfl⟩)
      cases before <;> simp
  | unimaged => exact .inl ⟨rfl, rfl⟩
  | shows image shown _ himage hshown =>
      exact .inr (.inr ⟨image, shown, himage, hshown, rfl, rfl⟩)
  | hidden =>
      cases before with
      | true => exact .inr (.inl ⟨by simp, rfl⟩)
      | false => exact .inl ⟨rfl, rfl⟩

/-- Keeping contracts as matching leaves mask and query as they are. -/
theorem add_same (f : Feed) (id : String) :
    (f.add id).mask = f.mask ∧ (f.add id).query = f.query := by
  rw [add]
  split <;> exact ⟨rfl, rfl⟩

theorem foldl_add_same (ids : List String) (f : Feed) :
    (ids.foldl add f).mask = f.mask ∧ (ids.foldl add f).query = f.query := by
  induction ids generalizing f with
  | nil => exact ⟨rfl, rfl⟩
  | cons id rest ih =>
      obtain ⟨hmask, hquery⟩ := ih (f.add id)
      exact ⟨hmask.trans (add_same f id).1, hquery.trans (add_same f id).2⟩

/-- Only a request to follow another query changes what a feed follows. -/
theorem handle_same [TextLibrary] (f : Feed) (k : Kernel) {request : FeedRequest}
    (hkeeps : ∀ schema options, request ≠ .follow schema options) :
    (f.handle k request).2.mask = f.mask
      ∧ (f.handle k request).2.query = f.query := by
  cases request with
  | change ch =>
      rw [handle]
      split
      · next result hclassify =>
          obtain ⟨event, f'⟩ := result
          rcases classify_cases hclassify with
            ⟨-, rfl⟩ | ⟨-, rfl⟩ | ⟨-, -, -, -, -, rfl⟩
          · exact ⟨rfl, rfl⟩
          · exact ⟨rfl, rfl⟩
          · exact add_same f ch.id
      · exact ⟨rfl, rfl⟩
  | query id schema options =>
      rw [handle]
      split
      · next event f' hanswer =>
          obtain ⟨q, -, hanswer⟩ := except_bind_ok hanswer
          obtain ⟨rows, -, hanswer⟩ := except_bind_ok hanswer
          obtain ⟨-, rfl⟩ := Prod.mk.inj (Except.ok.inj hanswer)
          exact foldl_add_same (idsOf rows) f
      · exact ⟨rfl, rfl⟩
  | follow schema options => exact absurd rfl (hkeeps schema options)
  | close => exact ⟨rfl, rfl⟩

/-- No request changes the mask of a feed. -/
theorem mask_handle [TextLibrary] (f : Feed) (k : Kernel) (request : FeedRequest) :
    (f.handle k request).2.mask = f.mask := by
  cases request with
  | follow schema options =>
      rw [handle]
      cases hfollow : f.follow k schema options with
      | error e => rfl
      | ok f' =>
          obtain ⟨q, -, hfollow⟩ := except_bind_ok hfollow
          obtain rfl := Except.ok.inj hfollow
          rfl
  | _ => exact (handle_same f k fun _ _ h => by cases h).1

theorem Followed.same [TextLibrary] (h : g.Followed f) :
    f.mask = g.mask ∧ f.query = g.query := by
  induction h with
  | opened => exact ⟨rfl, rfl⟩
  | handled _ k request hkeeps ih =>
      obtain ⟨hmask, hquery⟩ := handle_same _ k hkeeps
      exact ⟨hmask.trans ih.1, hquery.trans ih.2⟩

/-! ## Events -/

open Kernel (card met reader tied)

/-- A feed opens where its query compiles behind the mask. -/
theorem start_eq [TextLibrary] {session : String} {query : Json} {mask schema : Schema}
    {options : QueryOptions} {q : Query} (hmask : k.mask session = .ok mask)
    (hquery : Schema.ofQuery query = .ok schema)
    (hq : Query.compileMasked k.settings mask schema none options = .ok q) :
    start k session query options = .ok { mask := mask, query := q } := by
  simp [start, hmask, hquery, hq, bind, Except.bind, pure, Except.pure]

/-- A new contract that the query permits is reported. -/
theorem classify_insert [TextLibrary] {schema : Schema} {c : Contract} {image : Json}
    (hk : k.Sound)
    (hq : Query.compileMasked k.settings g.mask schema none {} = .ok g.query)
    (hweighs : ¬(Mask.merge g.mask schema).Weighs) (himage : k.store.Bears image c)
    (hpermits : k.permits g.mask schema c = true) (hmatched : g.matched = []) :
    g.classify k ⟨c.id, .insert, none, some image⟩
      = .ok (some (.insert c.id
          (Mask.redact (g.query.resultOf k.store.rowsLinked image) g.mask)),
        g.add c.id) := by
  have hshown := hk.evaluate_image hq hweighs himage
  rw [if_pos hpermits] at hshown
  simp [classify, matchedBefore, hmatched, classifyAfter, shown, hshown, matchEvent,
    bind, Except.bind, pure, Except.pure]

/-- A role that may read the card. -/
def cards : Json :=
  .object
    [("properties", .object [("slug", .object [("const", .string "card")])])]

/-- The schema of the role. -/
def cardsSchema : Schema :=
  .node { properties := some [("slug", .node { const := some (.string "card") })] }

/-- The mask of the reader. -/
def cardsMask : Schema := .conj [.disj [cardsSchema], Mask.ofMarkers ["role-reader"]]

theorem reread_cards : (reader cards).reread = some (reader cards) :=
  Kernel.reread_reader rfl

theorem mask_met_cards : (met cards).mask "reader" = .ok cardsMask :=
  Kernel.mask_met reread_cards rfl

theorem mask_tied_cards : (tied cards).mask "reader" = .ok cardsMask :=
  Kernel.mask_tied reread_cards rfl

/-- The mask of the reader compares no contract as a whole. -/
theorem not_weighs_merge {schema : Schema}
    (h : ¬(Mask.prune schema cardsMask).Weighs) :
    ¬(Mask.merge cardsMask schema).Weighs := by
  have hcards : ¬(Schema.disj [cardsSchema]).Weighs := by
    have hschema : ¬cardsSchema.Weighs := Schema.not_weighs_leaf rfl rfl rfl rfl
    exact Schema.not_weighs_disj (by simpa using hschema)
  have hmarkers : ¬(Mask.ofMarkers ["role-reader"]).Weighs :=
    Schema.not_weighs_leaf rfl rfl rfl rfl
  have hmask : ¬cardsMask.Weighs :=
    Schema.not_weighs_conj (by simpa using ⟨hcards, hmarkers⟩)
  exact Schema.not_weighs_conj (by simpa using ⟨hmask, h⟩)

/-- The change that announces the card. -/
def cardAdded : Change := ⟨"card", .insert, none, some ((tied cards).store.image card)⟩

theorem bears_card :
    (tied cards).store.Bears ((tied cards).store.image card) card := by
  refine Store.LinksInOrder.bears ⟨?_, fun name => ?_⟩ ?_
  · simp [Kernel.store_tied, Kernel.likingEdge, card]
  · have hlength : ((tied cards).store.linkedRows card.id name).length ≤ 1 := by
      rw [Store.linkedRows, Kernel.store_tied]
      exact List.length_filterMap_le _ _
    exact List.pairwise_iff_getElem.mpr fun i j hi hj hij => by omega
  · simp [Kernel.contracts_tied reread_cards]

/-- A feed for the reader that the card meets reports the card. -/
theorem card_reported [TextLibrary] {query : Json} {schema : Schema}
    (hquery : Schema.ofQuery query = .ok schema)
    (hcompiles : (Mask.merge cardsMask schema).Compiles)
    (hweighs : ¬(Mask.merge cardsMask schema).Weighs)
    (hmeets : ∀ links,
      (Mask.merge cardsMask schema).meets links .contract card.toRow = true) :
    ∃ q, Query.compileMasked (tied cards).settings cardsMask schema none {} = .ok q
      ∧ start (met cards) "reader" query {} = .ok { mask := cardsMask, query := q }
      ∧ (tied cards).permits cardsMask schema card = true
      ∧ classify { mask := cardsMask, query := q } (tied cards) cardAdded
        = .ok (some (.insert "card" (Mask.redact (q.resultOf
            (tied cards).store.rowsLinked ((tied cards).store.image card)) cardsMask)),
          { mask := cardsMask, query := q, matched := ["card"] }) := by
  have sound := (Kernel.tied_reachable cards).sound
  have hsettings : (tied cards).settings = (met cards).settings :=
    (Kernel.settings_tied cards).trans (Kernel.settings_met cards).symm
  have hlimit : (tied cards).settings.limit ({} : QueryOptions).limit = .ok 100 := by
    rw [Kernel.settings_tied]
    rfl
  have hpermits : (tied cards).permits cardsMask schema card = true := by
    rw [← sound.meets_merge_eq hcompiles, hmeets]
  obtain ⟨q, hq, -⟩ := Kernel.compileMasked_ok hlimit hcompiles none
  exact ⟨q, hq, start_eq mask_met_cards hquery (hsettings ▸ hq), hpermits,
    classify_insert (g := { mask := cardsMask, query := q }) sound hq hweighs bears_card
      hpermits rfl⟩

/-- A query for slugs. -/
def slugs : Json := .object [("properties", .object [("slug", .bool true)])]

theorem not_accepts_cards [TextLibrary] {c : Contract} (h : c = reader cards ∨ c = Kernel.liking) :
    (tied cards).accepts cardsMask c.toRow = .ok false := by
  rw [(Kernel.tied_reachable cards).sound.accepts_eq (Validator.ofSchema_ok.mp ⟨_, rfl⟩)]
  rcases h with rfl | rfl
  · rfl
  · rfl

theorem linksOf_card : (tied cards).store.linksOf "card"
    = [("is liked by", [(reader cards).toRow])] := by
  have hedges : (tied cards).store.edges = [("liking", Kernel.likingEdge)] := by
    rw [Kernel.store_tied]
  have hreader := Kernel.contract?_tied reread_cards
  generalize (tied cards).store = s at hedges hreader ⊢
  have hfar : Kernel.likingEdge.farEnd "card" = "reader" := by decide
  have hname : Kernel.likingEdge.nameFrom "card" = "is liked by" := by decide
  have hto : Kernel.likingEdge.toId = "card" := rfl
  simp [Store.linksOf, hedges, hto, hfar, hname, hreader, Option.filter,
    Store.addLinked, Dict.insert]

/-- A feed of everything reports the card with a linked contract that the
    query does not return, and that the mask does not accept. -/
theorem reports_unasked_links : ∃ g f' contract result,
    (tied cards).Reachable
      ∧ start (met cards) "reader" (.object []) {} = .ok g
      ∧ (tied cards).mask "reader" = (met cards).mask "reader"
      ∧ tied cards = ((Kernel.write .insert card).run (met cards)).2
      ∧ (tied cards).announced = (met cards).announced ++ [cardAdded]
      ∧ g.classify (tied cards) cardAdded = .ok (some (.insert "card" contract), f')
      ∧ (tied cards).query "reader" (.object []) {} = .ok [result]
      ∧ result.field? "links" = none
      ∧ Query.Lists contract "is liked by" (Mask.redact (reader cards).toRow cardsMask)
      ∧ (tied cards).accepts cardsMask (reader cards).toRow = .ok false := by
  have sound := (Kernel.tied_reachable cards).sound
  have hschema : Schema.ofQuery (.object []) = .ok (.node {}) := rfl
  obtain ⟨q, hq, hstart, hcard, hclassify⟩ :=
    card_reported hschema (Validator.ofSchema_ok.mp ⟨_, rfl⟩)
      (not_weighs_merge (Schema.not_weighs_leaf rfl rfl rfl rfl)) fun _ => rfl
  have hwhole (c : Json) : q.resultOf (tied cards).store.rowsLinked c = c := by
    obtain ⟨limit, -, hcompile⟩ := Kernel.compile_of_compileMasked hq
    exact Query.resultOf_whole hcompile c
  have hother {c : Contract} (h : c = reader cards ∨ c = Kernel.liking) :
      (tied cards).permits cardsMask (.node {}) c = false := by
    rw [Kernel.permits, Kernel.shows, not_accepts_cards h, Bool.false_and]
  have honly : (tied cards).store.contracts.filter
      ((tied cards).permits cardsMask (.node {})) = [card] := by
    simp [Kernel.contracts_tied reread_cards, hcard, hother (.inl rfl),
      hother (.inr rfl)]
  have hquery : (tied cards).query "reader" (.object []) {}
      = .ok [Mask.redact card.toRow cardsMask] := by
    rw [sound.query_of_single mask_tied_cards hschema hq honly, Kernel.resultFor,
      hwhole]
  have hannounced : (tied cards).announced = (met cards).announced ++ [cardAdded] := by
    have hstore : (tied cards).store = (met cards).store.put card := by
      rw [Kernel.tied_eq]
    rw [cardAdded, hstore, Kernel.tied_eq]
  have himage : (tied cards).store.image card = .object (Dict.insert card.rowFields
      "links" (Contract.linksJson [("is liked by", [(reader cards).toRow])])) :=
    congrArg (fun links => Json.object (Dict.insert card.rowFields "links"
      (Contract.linksJson links))) linksOf_card
  rw [hwhole, himage] at hclassify
  refine ⟨_, _, _, _, Kernel.tied_reachable cards, hstart,
    mask_tied_cards.trans mask_met_cards.symm, rfl, hannounced, hclassify, hquery, ?_,
    ?_, not_accepts_cards (.inl rfl)⟩
  · rw [Mask.field?_redact_links]
    rfl
  · exact ⟨_, _, rfl, List.mem_singleton_self _, List.mem_singleton_self _⟩

end Feed

end LinkedContracts
