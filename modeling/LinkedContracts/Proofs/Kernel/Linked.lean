import LinkedContracts.Proofs.Compile.Masked
import LinkedContracts.Proofs.Kernel.Queried
import LinkedContracts.Proofs.Kernel.Tied
import LinkedContracts.Proofs.Mask
import LinkedContracts.Proofs.Query.Attached

/-! # Linked contracts that queries show

    Whatever a query shows under `links`, at any depth, is a stored active
    contract with that link.  The links a query asks for have the mask on
    them, so that the mask accepts what is found there.  But the results of
    all links of one type are shown together, and those that the mask asks
    for by itself have no mask on them: a mask that asks links of a type lets
    through, under that type, whatever meets what it asks. -/

namespace LinkedContracts

/-! ## Redacted links -/

namespace Mask

open Query (Lists Shown)

variable {mask : Schema} {c d : Json} {linkType : String}

theorem mem_redactAll {ds : List Json} (h : d ∈ redactAll ds mask) :
    ∃ e ∈ ds, d = redact e mask := by
  induction ds with
  | nil => cases h
  | cons e rest ih =>
      rcases List.mem_cons.mp h with rfl | h
      · exact ⟨e, List.mem_cons_self, rfl⟩
      · obtain ⟨e', he, rfl⟩ := ih h
        exact ⟨e', List.mem_cons_of_mem e he, rfl⟩

theorem mem_redactLinkTypes {links : List (String × Json)} {ds : List Json}
    (h : (linkType, .array ds) ∈ redactLinkTypes links mask) :
    ∃ es, (linkType, .array es) ∈ links ∧ ds = redactAll es mask := by
  induction links with
  | nil => cases h
  | cons p rest ih =>
      obtain ⟨name, v⟩ := p
      cases v with
      | array es =>
          rcases List.mem_cons.mp h with heq | h
          · obtain ⟨rfl, hds⟩ := Prod.mk.inj heq
            exact ⟨es, List.mem_cons_self, Json.array.inj hds⟩
          · obtain ⟨es', hes, rfl⟩ := ih h
            exact ⟨es', List.mem_cons_of_mem _ hes, rfl⟩
      | _ =>
          rcases List.mem_cons.mp h with heq | h
          · cases heq
          · obtain ⟨es, hes, rfl⟩ := ih h
            exact ⟨es, List.mem_cons_of_mem _ hes, rfl⟩

/-- A text that is shown of a contract is its own. -/
theorem field?_of_redact {key s : String} (hkey : key ≠ "links")
    (h : (redact c mask).field? key = some (.string s)) :
    c.field? key = some (.string s) := by
  cases c with
  | object fields =>
      have hfound : Dict.find? (redactRow fields mask) key = some (.string s) := h
      rw [find?_redactRow fields mask hkey] at hfound
      split at hfound
      · cases hfound
      obtain ⟨v, hv, hredact⟩ := Option.map_eq_some_iff.mp hfound
      cases v with
      | object _ => cases hredact
      | _ => exact hv.trans (congrArg some hredact)
  | _ => cases h

/-- A redacted contract lists redacted contracts. -/
theorem lists_of_redact (h : Lists (redact c mask) linkType d) :
    ∃ e, Lists c linkType e ∧ d = redact e mask := by
  obtain ⟨links, ds, hlinks, hds, hd⟩ := h
  rw [field?_redact_links] at hlinks
  obtain ⟨v, hv, hredact⟩ := Option.map_eq_some_iff.mp hlinks
  cases v with
  | object all =>
      obtain rfl := Json.object.inj hredact
      obtain ⟨es, hes, rfl⟩ := mem_redactLinkTypes hds
      obtain ⟨e, he, rfl⟩ := mem_redactAll hd
      exact ⟨e, ⟨all, es, hv, hes, he⟩, rfl⟩
  | _ => cases hredact

/-- What a redacted contract is shown with is redacted. -/
theorem shown_of_redact (h : Shown (redact c mask) linkType d) :
    ∃ e, Shown c linkType e ∧ d = redact e mask := by
  generalize hr : redact c mask = r at h
  induction h generalizing c with
  | direct h =>
      subst hr
      obtain ⟨e, he, rfl⟩ := lists_of_redact h
      exact ⟨e, .direct he, rfl⟩
  | further h _ ih =>
      subst hr
      obtain ⟨e, he, rfl⟩ := lists_of_redact h
      obtain ⟨f, hf, rfl⟩ := ih rfl
      exact ⟨f, .further he hf, rfl⟩

end Mask

namespace Kernel

variable {k : Kernel} {mask schema : Schema} {select : Option Selection}
  {options : QueryOptions}

/-! ## Linked rows -/

@[simp] theorem isActive_toRow (c : Contract) : c.toRow.isActive = c.active := by
  have hfield : c.toRow.field? "active" = some (.bool c.active) := rfl
  rw [Json.isActive, hfield]
  cases c.active <;> rfl

/-! ## What queries show -/

section

variable [TextLibrary]

theorem query_of_mask {session : String} {query : Json}
    (hmask : k.mask session = .ok mask) (hquery : Schema.ofQuery query = .ok schema) :
    k.query session query options = k.results mask schema none options := by
  rw [Kernel.query, hmask, hquery]
  rfl

/-- A query that permits one stored contract has it alone on its page. -/
theorem page_of_single {c : Contract} {limit : Nat}
    (hlimit : k.settings.limit none = .ok limit)
    (h : k.store.contracts.filter (k.permits mask schema) = [c]) :
    page 0 (some limit) ((k.store.ordered {}).filter (k.permits mask schema)) = [c] := by
  have honly : (k.store.ordered {}).filter (k.permits mask schema) = [c] :=
    List.perm_singleton.mp (h ▸ (k.store.ordered_perm {}).filter _)
  rw [honly, page_take (by simpa using Settings.limit_ne_zero hlimit)]
  simp [page]

/-- Its result is returned. -/
theorem Sound.query_of_single (hk : k.Sound) {session : String} {query : Json}
    {q : Query} {c : Contract} (hmask : k.mask session = .ok mask)
    (hquery : Schema.ofQuery query = .ok schema)
    (hq : Query.compileMasked k.settings mask schema none {} = .ok q)
    (h : k.store.contracts.filter (k.permits mask schema) = [c]) :
    k.query session query {} = .ok [k.resultFor q mask c] := by
  obtain ⟨limit, hlimit, hcompile⟩ := compile_of_compileMasked hq
  have hcompiles := compiles_of_compile hcompile
  rw [query_of_mask hmask hquery, hk.results_eq hlimit hcompiles hq, Option.getD_none,
    page_of_single hlimit h, List.map_singleton]

end

/-! ## A mask that asks a link -/

/-- A role that may read its own contract, if that likes anything. -/
def fond : Json :=
  .object
    [("$$links", .object [("likes", .bool true)]),
     ("properties", .object
       [("slug", .object [("const", .string "role-reader")])])]

/-- The schema of the role. -/
def fondSchema : Schema :=
  .node
    { properties := some [("slug", .node { const := some (.string "role-reader") })]
      links := some [("likes", .bool true)] }

/-- The mask of the reader. -/
def fondMask : Schema := .conj [.disj [fondSchema], Mask.ofMarkers ["role-reader"]]

theorem reread_fond : (reader fond).reread = some (reader fond) :=
  reread_reader rfl

theorem mask_fond : (tied fond).mask "reader" = .ok fondMask :=
  mask_tied reread_fond rfl

theorem compiles_fondMask : fondMask.Compiles :=
  Validator.ofSchema_ok.mp ⟨_, rfl⟩

/-- The slugs of all contracts, with those of the contracts they like. -/
def likings : Json :=
  .object
    [("anyOf", .array [.bool true, .object
      [("$$links", .object
        [("likes", .object [("properties", .object [("slug", .bool true)])])])]]),
     ("properties", .object [("slug", .bool true)])]

/-- The schema of the query. -/
def likingsSchema : Schema :=
  let slugs : Schema := .node { properties := some [("slug", .bool true)] }
  .node
    { properties := some [("slug", .bool true)]
      anyOf := some [.bool true, .node { links := some [("likes", slugs)] }] }

/-- What the reader is shown: its own slug, and that of the card. -/
def likingsShown : Json :=
  .object
    [("links", .object
      [("likes", .array [.object [("slug", .string "card")]])]),
     ("slug", .string "role-reader")]

/-- The rows linked in the store. -/
def likes (row : Json) (name : String) : List Json :=
  if row.stringField? "id" = some "reader" ∧ name = "likes" then [card.toRow]
  else if row.stringField? "id" = some "card" ∧ name = "is liked by" then
    [(reader fond).toRow]
  else []

theorem rowsLinked_fond : (tied fond).store.rowsLinked = likes := by
  funext row name
  rw [Store.rowsLinked, likes]
  cases row.stringField? "id" with
  | none => rfl
  | some id =>
      simp only [linked_tied reread_fond, Option.some.injEq]
      split
      · rfl
      split <;> rfl

theorem result_fond :
    (Query.compileMasked {} fondMask likingsSchema none {}).toOption.map
        (fun q => Mask.redact (q.resultOf likes (reader fond).toRow) fondMask)
      = some likingsShown := by
  decide +kernel

theorem not_accepts_fond {c : Contract} (h : c = card ∨ c = liking) :
    (tied fond).accepts fondMask c.toRow = .ok false := by
  rw [(tied_reachable fond).sound.accepts_eq compiles_fondMask, rowsLinked_fond]
  rcases h with rfl | rfl
  · exact congrArg Except.ok (by decide +kernel)
  · exact congrArg Except.ok (by decide +kernel)

theorem query_fond : (tied fond).query "reader" likings {} = .ok [likingsShown] := by
  have sound := (tied_reachable fond).sound
  have hresult := result_fond
  cases hq : Query.compileMasked {} fondMask likingsSchema none {} with
  | error e => rw [hq] at hresult; cases hresult
  | ok q =>
      rw [hq] at hresult
      have hshown : (tied fond).resultFor q fondMask (reader fond) = likingsShown := by
        rw [resultFor, rowsLinked_fond]
        exact Option.some.inj hresult
      obtain ⟨limit, hlimit, hcompile⟩ := compile_of_compileMasked hq
      rw [← settings_tied fond] at hq
      have hreader : (tied fond).permits fondMask likingsSchema (reader fond)
          = true := by
        rw [← sound.meets_merge_eq (compiles_of_compile hcompile), rowsLinked_fond]
        decide +kernel
      have hother {c : Contract} (h : c = card ∨ c = liking) :
          (tied fond).permits fondMask likingsSchema c = false := by
        rw [permits, shows, not_accepts_fond h, Bool.false_and]
      have honly : (tied fond).store.contracts.filter
          ((tied fond).permits fondMask likingsSchema) = [reader fond] := by
        simp [contracts_tied reread_fond, hreader, hother (.inl rfl),
          hother (.inr rfl)]
      rw [sound.query_of_single mask_fond rfl hq honly, hshown]

/-- The card as it is shown. -/
def cardShown : Json := .object [("slug", .string "card")]

theorem shown_likings : Query.Shown likingsShown "likes" cardShown :=
  .direct ⟨_, [cardShown], rfl, List.mem_singleton_self _, List.mem_singleton_self _⟩

/-- A mask that asks links shows a card that it does not accept. -/
theorem shows_unaccepted_card :
    Reachable (tied fond)
      ∧ (tied fond).mask "reader" = .ok fondMask
      ∧ (tied fond).query "reader" likings {} = .ok [likingsShown]
      ∧ Query.Shown likingsShown "likes" cardShown
      ∧ ¬∃ c ∈ (tied fond).store.contracts, c.active = true
        ∧ (tied fond).accepts fondMask c.toRow = .ok true
        ∧ ∃ e, Query.Presents c.toRow e ∧ cardShown = Mask.redact e fondMask := by
  refine ⟨tied_reachable fond, mask_fond, query_fond, shown_likings, ?_⟩
  rintro ⟨c, hc, -, haccepts, e, hpresents, hshown⟩
  rw [contracts_tied reread_fond] at hc
  simp only [List.mem_cons, List.not_mem_nil, or_false] at hc
  have hreader : c = reader fond := by
    rcases hc with rfl | rfl | rfl
    · rw [not_accepts_fond (.inl rfl)] at haccepts
      cases haccepts
    · rw [not_accepts_fond (.inr rfl)] at haccepts
      cases haccepts
    · rfl
  -- the slug of the reader is not the one shown
  have hredact : (Mask.redact e fondMask).field? "slug" = some (.string "card") := by
    rw [← hshown]
    rfl
  have hslug := Mask.field?_of_redact (by decide) hredact
  obtain ⟨⟨properties, links⟩, w, hw, hproject⟩ := hpresents.field? (by decide) hslug
  obtain rfl : Json.string "role-reader" = w := by
    simpa [hreader] using hw
  cases properties <;> simp [Selection.project] at hproject

end Kernel

end LinkedContracts
