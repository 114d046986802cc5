import LinkedContracts.Proofs.Feed
import LinkedContracts.Proofs.Kernel.Named
import Mathlib.Data.Finset.Basic
import Mathlib.Data.Finset.Lattice.Lemmas

/-! # What a subscriber knows

    A feed keeps the ids of the contracts that it reported as matching.  Who
    receives its reports can keep such ids as well: a contract that was inserted
    or updated is added, and so are those that a dataset shows with their ids; one
    that was deleted or ceased to match is taken away; and all are forgotten when
    another query is followed.

    A feed takes the ids of a dataset from the rows behind it.  Its events need
    not show them: a query may name other properties only, and a mask may forbid
    ids.  Where every dataset shows its ids, feed and subscriber have kept the same
    ids after any requests, whether they failed or not; elsewhere the feed may have
    kept more.

    Of a single change a feed reports one event at most.  Once a change was
    classified its contract is known exactly if it was not deleted and matches
    now, and no contract is reported as gone that was not kept or did not match. -/

namespace LinkedContracts

namespace Feed

variable {f f' : Feed} {k : Kernel} {ch : Change} {event : Option FeedEvent}

/-! ## Reports -/

/-- What is reported of a request. -/
structure Report where
  request : FeedRequest
  event : Option FeedEvent

section

variable [TextLibrary]

/-- What a feed reports of a request. -/
def report (f : Feed) (k : Kernel) (request : FeedRequest) : Report :=
  ⟨request, (f.handle k request).1⟩

/-- The feed after requests, each with the kernel as it is then. -/
def serve (f : Feed) (log : List (Kernel × FeedRequest)) : Feed :=
  log.foldl (fun f (k, request) => (f.handle k request).2) f

/-- What a feed reports of requests. -/
def reports (f : Feed) : List (Kernel × FeedRequest) → List Report
  | [] => []
  | (k, request) :: rest =>
      f.report k request :: reports (f.handle k request).2 rest

/-- The ids that are known after a report.  Of a dataset they are those that it
    shows.  Another query was followed if nothing is reported of the request to do
    so. -/
def Report.learn (known : Finset String) (r : Report) : Finset String :=
  match r.event, r.request with
  | some (.insert id _), _ | some (.update id _), _ => insert id known
  | some (.dataset _ contracts), _ => known ∪ (idsOf contracts).toFinset
  | some (.delete id), _ | some (.unmatch id), _ => known.erase id
  | none, .follow _ _ => ∅
  | _, _ => known

/-- The ids that are known after reports. -/
def known (reports : List Report) : Finset String := reports.foldl Report.learn ∅

theorem serve_cons (f : Feed) (k : Kernel) (request : FeedRequest)
    (log : List (Kernel × FeedRequest)) :
    f.serve ((k, request) :: log) = (f.handle k request).2.serve log := rfl

theorem reports_cons (f : Feed) (k : Kernel) (request : FeedRequest)
    (log : List (Kernel × FeedRequest)) :
    f.reports ((k, request) :: log)
      = f.report k request :: (f.handle k request).2.reports log := rfl

theorem serve_snoc (f : Feed) (log : List (Kernel × FeedRequest)) (k : Kernel)
    (request : FeedRequest) :
    f.serve (log ++ [(k, request)]) = ((f.serve log).handle k request).2 := by
  rw [serve, List.foldl_append]
  rfl

theorem reports_snoc (f : Feed) (log : List (Kernel × FeedRequest)) (k : Kernel)
    (request : FeedRequest) :
    f.reports (log ++ [(k, request)]) = f.reports log ++ [(f.serve log).report k request] := by
  induction log generalizing f with
  | nil => rfl
  | cons entry rest ih =>
      obtain ⟨k', request'⟩ := entry
      exact congrArg (f.report k' request' :: ·) (ih _)

end

/-! ## The ids of a feed -/

theorem matched_add (f : Feed) (id : String) :
    (f.add id).matched.toFinset = insert id f.matched.toFinset := by
  rw [add]
  split
  next hid => rw [Finset.insert_eq_of_mem (List.mem_toFinset.mpr hid)]
  next =>
    ext other
    simp

theorem matched_remove (f : Feed) (id : String) :
    (f.remove id).matched.toFinset = f.matched.toFinset.erase id := by
  ext other
  simp [remove, and_comm]

theorem matched_addAll (f : Feed) (ids : List String) :
    (ids.foldl add f).matched.toFinset = f.matched.toFinset ∪ ids.toFinset := by
  induction ids generalizing f with
  | nil => simp
  | cons id rest ih =>
      rw [List.foldl_cons, ih, matched_add]
      simp [Finset.insert_union, Finset.union_insert]

/-! ## What a change comes to -/

/-- Whether an image matches the query of a feed. -/
def Matches (f : Feed) (k : Kernel) (image : Json) : Prop :=
  ∃ shown, f.shown k image = .ok (some shown)

/-- Whether the contract of a change was known to match, or matched before
    it. -/
def Matched (f : Feed) (k : Kernel) (ch : Change) : Prop :=
  ch.id ∈ f.matched ∨ ∃ image, ch.before = some image ∧ f.Matches k image

theorem matched_of_matchedBefore (h : f.matchedBefore k ch = .ok true) :
    f.Matched k ch := by
  rw [matchedBefore] at h
  split at h
  next hid => exact .inl hid
  next =>
    split at h
    next image himage =>
      cases hshown : f.shown k image with
      | error e =>
          rw [hshown] at h
          cases h
      | ok result =>
          rw [hshown] at h
          obtain ⟨shown, rfl⟩ := Option.isSome_iff_exists.mp (Except.ok.inj h)
          exact .inr ⟨image, himage, shown, hshown⟩
    next => cases h

theorem not_mem_of_matchedBefore (h : f.matchedBefore k ch = .ok false) :
    ch.id ∉ f.matched := by
  intro hid
  rw [matchedBefore, if_pos hid] at h
  cases h

/-- A change that was classified leaves what its event tells. -/
theorem Classified.learns {before : Bool} (h : f.Classified k ch before event f')
    (hbefore : f.matchedBefore k ch = .ok before) :
    f'.matched.toFinset
      = Report.learn f.matched.toFinset ⟨.change ch, event⟩ := by
  -- taking away what was not there changes nothing
  have hnot (hfalse : before = false) :
      f.matched.toFinset.erase ch.id = f.matched.toFinset := by
    refine Finset.erase_eq_of_notMem fun hmem => ?_
    exact not_mem_of_matchedBefore (hfalse ▸ hbefore) (List.mem_toFinset.mp hmem)
  cases h with
  | deleted hkind =>
      rw [matched_remove]
      cases before with
      | true => rfl
      | false => exact hnot rfl
  | unimaged => rfl
  | shows image shown =>
      rw [matched_add, matchEvent]
      split <;> rfl
  | hidden image =>
      cases before with
      | true => exact matched_remove f ch.id
      | false => rfl

/-! ## Datasets -/

/-- Whether what a request is answered with shows ids: its query names them, if it
    names anything that the mask shows, and the mask does not forbid them. -/
def Tells (mask : Schema) : FeedRequest → Prop
  | .query _ schema _ =>
      Mask.forbids mask "id" = false ∧ (Query.NamesVisible mask schema → schema.Names "id")
  | _ => True

/-- The rows of a query are those of stored contracts. -/
theorem row_of_run {q : Query} {rows : List Json} (h : k.run q = .ok rows) :
    ∀ row ∈ rows, ∃ c ∈ k.store.contracts, ∃ found, row = q.rowOf c.toRow found := by
  intro row hrow
  rw [Kernel.run] at h
  split at h
  · cases h
  rw [Store.run, Store.linkSource_eq, Query.pageRows_known] at h
  rw [← Except.ok.inj h] at hrow
  obtain ⟨contract, hcontract, rfl⟩ := List.mem_map.mp (mem_of_mem_page hrow)
  have hsorted := (List.mem_filter.mp hcontract).1
  obtain ⟨c, hc, rfl⟩ := List.mem_map.mp (Query.mem_sort.mp hsorted)
  exact ⟨c, hc, _, rfl⟩

section

variable [TextLibrary]
variable {mask schema : Schema} {options : QueryOptions} {q : Query}
  (hq : Query.compileMasked k.settings mask schema none options = .ok q)

include hq

/-- What is shown of a row has the id of the row, or none. -/
theorem id_shown (c : Contract) (found : List LinkMatch) :
    let shown := Mask.redact (q.reshape (q.rowOf c.toRow found)) mask
    (shown.field? "id" = none ∨ shown.field? "id" = some (.string c.id))
      ∧ (shown.field? "id" ≠ none ↔ Mask.forbids mask "id" = false
        ∧ (Query.NamesVisible mask schema → schema.Names "id")) := by
  intro shown
  obtain ⟨limit, -, hcompile⟩ := Kernel.compile_of_compileMasked hq
  constructor
  · refine or_iff_not_imp_left.mpr fun hsome => ?_
    rw [Mask.field?_redact _ _ (by decide)] at hsome ⊢
    split at hsome
    · exact absurd rfl hsome
    next hforbids =>
      rw [if_neg hforbids]
      rw [Query.field?_reshape hcompile _ _ (by decide)] at hsome ⊢
      obtain ⟨v, hv⟩ := Option.ne_none_iff_exists'.mp (mt Option.map_eq_none_iff.mpr hsome)
      obtain ⟨sub, w, hw, rfl⟩ := Selection.field?_project hv
      obtain rfl : w = .string c.id := (Option.some.inj hw).symm
      rw [hv]
      obtain ⟨properties, links⟩ := sub
      cases properties <;> rfl
  · rw [Mask.field?_redact_ne_none (by decide),
      Query.field?_reshape_ne_none hq _ _ (by decide)]
    constructor
    · rintro ⟨⟨-, hnames⟩, hforbids⟩
      exact ⟨hforbids, fun hvisible => (hnames hvisible).1⟩
    · rintro ⟨hforbids, hnames⟩
      exact ⟨⟨by simp, fun hvisible => ⟨hnames hvisible, hforbids⟩⟩, hforbids⟩

/-- A dataset shows the ids of its rows, or none of them. -/
theorem idsOf_shown {rows : List Json} (hrows : k.run q = .ok rows) (id : String) :
    let shown := idsOf (rows.map fun row => Mask.redact (q.reshape row) mask)
    (Tells mask (.query id schema options) → shown = idsOf rows)
      ∧ (¬Tells mask (.query id schema options) → shown = []) := by
  intro shown
  obtain ⟨limit, -, hcompile⟩ := Kernel.compile_of_compileMasked hq
  constructor
  · intro htells
    refine List.filterMap_map.trans (List.filterMap_congr fun row hrow => ?_)
    obtain ⟨c, -, found, rfl⟩ := row_of_run hrows row hrow
    obtain ⟨hid, hshown⟩ := id_shown hq c found
    have hrow : (q.rowOf c.toRow found).field? "id" = some (.string c.id) :=
      Query.find?_columns hcompile (by decide)
    show ((Mask.redact (q.reshape (q.rowOf c.toRow found)) mask).field? "id").bind _
      = ((q.rowOf c.toRow found).field? "id").bind _
    rw [hid.resolve_left (hshown.mpr htells), hrow]
  · intro hsilent
    refine List.filterMap_eq_nil_iff.mpr fun contract hcontract => ?_
    obtain ⟨row, hrow, rfl⟩ := List.mem_map.mp hcontract
    obtain ⟨c, -, found, rfl⟩ := row_of_run hrows row hrow
    have hnone := Decidable.not_not.mp (mt (id_shown hq c found).2.mp hsilent)
    show ((Mask.redact (q.reshape (q.rowOf c.toRow found)) mask).field? "id").bind _ = none
    rw [hnone]
    rfl

end

/-! ## What reports tell -/

theorem mask_serve [TextLibrary] (f : Feed) (log : List (Kernel × FeedRequest)) :
    (f.serve log).mask = f.mask := by
  induction log using List.reverseRecOn with
  | nil => rfl
  | append_singleton log entry ih =>
      obtain ⟨k, request⟩ := entry
      rw [serve_snoc, mask_handle, ih]

/-- Who knows less before a report knows less after it. -/
theorem Report.learn_mono {known known' : Finset String} (h : known ⊆ known')
    (r : Report) : r.learn known ⊆ r.learn known' := by
  obtain ⟨request, event⟩ := r
  cases event with
  | none => cases request <;> first | exact h | exact Finset.Subset.refl _
  | some event =>
      cases event with
      | insert id _ | update id _ => exact Finset.insert_subset_insert id h
      | delete id | unmatch id => exact Finset.erase_subset_erase id h
      | dataset => exact Finset.union_subset_union_left h
      | failed | closed => exact h

/-- What a feed keeps after a request is what its report tells, if the ids are
    shown, and otherwise no less. -/
theorem matched_handle [TextLibrary] (f : Feed) (k : Kernel) (request : FeedRequest) :
    (f.report k request).learn f.matched.toFinset
        ⊆ (f.handle k request).2.matched.toFinset
      ∧ (Tells f.mask request → (f.handle k request).2.matched.toFinset
        = (f.report k request).learn f.matched.toFinset) := by
  cases request with
  | change ch =>
      suffices h : (f.handle k (.change ch)).2.matched.toFinset
          = Report.learn f.matched.toFinset ⟨.change ch, (f.handle k (.change ch)).1⟩ from
        ⟨h.symm.subset, fun _ => h⟩
      rw [handle]
      split
      next result hclassify =>
        obtain ⟨event, f'⟩ := result
        obtain ⟨before, hbefore, hclassified⟩ := classified_of_classify hclassify
        exact hclassified.learns hbefore
      next => rfl
  | query id schema options =>
      rw [report, handle]
      split
      next result hanswer =>
        obtain ⟨q, hq, hanswer⟩ := except_bind_ok hanswer
        obtain ⟨rows, hrows, hanswer⟩ := except_bind_ok hanswer
        obtain ⟨rfl, rfl⟩ := Prod.mk.inj (Except.ok.inj hanswer)
        obtain ⟨htold, hsilent⟩ := idsOf_shown hq hrows id
        rw [matched_addAll]
        refine ⟨Finset.union_subset_union_right ?_, fun htells => ?_⟩
        · by_cases htells : Tells f.mask (.query id schema options)
          · rw [htold htells]
          · rw [hsilent htells]
            exact Finset.empty_subset _
        · exact congrArg (f.matched.toFinset ∪ List.toFinset ·) (htold htells).symm
      next => exact ⟨Finset.Subset.refl _, fun _ => rfl⟩
  | follow schema options =>
      rw [report, handle]
      split
      next f' hfollow =>
        obtain ⟨q, -, hfollow⟩ := except_bind_ok hfollow
        obtain rfl := Except.ok.inj hfollow
        exact ⟨Finset.Subset.refl _, fun _ => rfl⟩
      next => exact ⟨Finset.Subset.refl _, fun _ => rfl⟩
  | close => exact ⟨Finset.Subset.refl _, fun _ => rfl⟩

theorem known_snoc [TextLibrary] (f : Feed) (log : List (Kernel × FeedRequest)) (k : Kernel)
    (request : FeedRequest) : known (f.reports (log ++ [(k, request)]))
      = ((f.serve log).report k request).learn (known (f.reports log)) := by
  rw [reports_snoc, known, List.foldl_append]
  rfl

/-- What the reports of requests told is kept, and nothing else if ids were always
    shown. -/
theorem matched_serve [TextLibrary] (mask : Schema) (query : Query)
    (log : List (Kernel × FeedRequest)) :
    let opened : Feed := { mask, query }
    known (opened.reports log) ⊆ (opened.serve log).matched.toFinset
      ∧ ((∀ entry ∈ log, Tells mask entry.2) →
        (opened.serve log).matched.toFinset = known (opened.reports log)) := by
  intro opened
  -- by the requests in their order, the last one by what its report tells
  induction log using List.reverseRecOn with
  | nil => exact ⟨Finset.Subset.refl _, fun _ => rfl⟩
  | append_singleton log entry ih =>
      obtain ⟨k, request⟩ := entry
      obtain ⟨hsubset, hsame⟩ := matched_handle (opened.serve log) k request
      rw [serve_snoc, known_snoc]
      constructor
      · exact (Report.learn_mono ih.1 _).trans hsubset
      · intro htells
        have hlast : Tells mask request := htells _ List.mem_concat_self
        have hrest := ih.2 fun entry hentry => htells entry (List.mem_append_left _ hentry)
        rw [hsame ((mask_serve opened log).symm ▸ hlast), hrest]

/-! ## Events of changes -/

/-- A contract is known after a change exactly if it matches now, whoever knew no
    more before than the feed kept. -/
theorem Classified.mem_iff {before : Bool} {told : Finset String}
    (h : f.Classified k ch before event f') (hbefore : f.matchedBefore k ch = .ok before)
    (htold : told ⊆ f.matched.toFinset) (hafter : ch.kind ≠ .delete → ch.after ≠ none) :
    ch.id ∈ Report.learn told ⟨.change ch, event⟩
      ↔ ch.kind ≠ .delete ∧ ∃ image, ch.after = some image ∧ f.Matches k image := by
  have hunknown (hfalse : before = false) : ch.id ∉ told := fun hmem =>
    not_mem_of_matchedBefore (hfalse ▸ hbefore) (List.mem_toFinset.mp (htold hmem))
  cases h with
  | deleted hkind =>
      refine iff_of_false ?_ fun hmatches => hmatches.1 hkind
      cases before with
      | true => exact Finset.notMem_erase _ _
      | false => exact hunknown rfl
  | unimaged hkind hnone => exact absurd hnone (hafter hkind)
  | shows image shown hkind himage hshown =>
      refine iff_of_true ?_ ⟨hkind, image, himage, shown, hshown⟩
      rw [matchEvent]
      split <;> exact Finset.mem_insert_self _ _
  | hidden image hkind himage hshown =>
      refine iff_of_false ?_ ?_
      · cases before with
        | true => exact Finset.notMem_erase _ _
        | false => exact hunknown rfl
      · rintro ⟨-, image', himage', shown, hshown'⟩
        obtain rfl := Option.some.inj (himage.symm.trans himage')
        cases Except.ok.inj (hshown.symm.trans hshown')

/-- What is reported as gone was there. -/
theorem Classified.gone {before : Bool} (h : f.Classified k ch before event f')
    (hbefore : f.matchedBefore k ch = .ok before) {id : String}
    (hevent : event = some (.delete id) ∨ event = some (.unmatch id)) :
    id = ch.id ∧ f.Matched k ch := by
  cases h with
  | deleted =>
      cases before with
      | true =>
          rcases hevent with hevent | hevent
          · cases hevent
            exact ⟨rfl, matched_of_matchedBefore hbefore⟩
          · cases hevent
      | false => rcases hevent with hevent | hevent <;> cases hevent
  | unimaged => rcases hevent with hevent | hevent <;> cases hevent
  | shows image shown =>
      rw [matchEvent] at hevent
      split at hevent <;> rcases hevent with hevent | hevent <;> cases hevent
  | hidden =>
      cases before with
      | true =>
          rcases hevent with hevent | hevent
          · cases hevent
          · cases hevent
            exact ⟨rfl, matched_of_matchedBefore hbefore⟩
      | false => rcases hevent with hevent | hevent <;> cases hevent

/-! ## Feeds and subscribers -/

/-- After any requests a feed keeps the ids that its reports told, and no others if
    all datasets show their ids.  A further change is reported by one event at most;
    what it reports as gone was kept or matched before the change; and if it is
    classified, its contract is known afterwards exactly if it was not deleted and
    matches now. -/
theorem matched_eq_known [TextLibrary] (mask : Schema) (query : Query)
    (log : List (Kernel × FeedRequest)) :
    let opened : Feed := { mask, query }
    let f := opened.serve log
    let told := known (opened.reports log)
    told ⊆ f.matched.toFinset
      ∧ ((∀ entry ∈ log, Tells mask entry.2) → f.matched.toFinset = told)
      ∧ ∀ k ch, ∃ event,
        opened.reports (log ++ [(k, .change ch)])
            = opened.reports log ++ [⟨.change ch, event⟩]
          ∧ (∀ id, event = some (.delete id) ∨ event = some (.unmatch id) →
            id = ch.id
              ∧ (id ∈ f.matched ∨ ∃ image, ch.before = some image ∧ f.Matches k image))
          ∧ ∀ result, f.classify k ch = .ok result →
            (ch.kind ≠ .delete → ch.after ≠ none) →
            (ch.id ∈ known (opened.reports (log ++ [(k, .change ch)]))
              ↔ ch.kind ≠ .delete
                ∧ ∃ image, ch.after = some image ∧ f.Matches k image) := by
  intro opened f told
  obtain ⟨hsubset, hsame⟩ := matched_serve mask query log
  refine ⟨hsubset, hsame, fun k ch => ?_⟩
  refine ⟨(f.handle k (.change ch)).1, reports_snoc opened log k (.change ch), ?_, ?_⟩
  · intro id hevent
    rw [handle] at hevent
    split at hevent
    next result hclassify =>
      obtain ⟨event, f'⟩ := result
      obtain ⟨before, hbefore, hclassified⟩ := classified_of_classify hclassify
      obtain ⟨rfl, hmatched⟩ := hclassified.gone hbefore hevent
      exact ⟨rfl, hmatched⟩
    next => rcases hevent with hevent | hevent <;> cases hevent
  · rintro ⟨event, f'⟩ hclassify hafter
    obtain ⟨before, hbefore, hclassified⟩ := classified_of_classify hclassify
    have hreport : f.report k (.change ch) = ⟨.change ch, event⟩ := by
      rw [report, handle, hclassify]
    rw [known_snoc, hreport]
    exact hclassified.mem_iff hbefore hsubset hafter

/-! ## Contracts that cease to match -/

/-- A contract that was kept and matches no more is reported as gone. -/
theorem classify_unmatch {image : Json} (hid : ch.id ∈ f.matched)
    (hkind : ch.kind ≠ .delete) (hafter : ch.after = some image)
    (hshown : f.shown k image = .ok none) :
    f.classify k ch = .ok (some (.unmatch ch.id), f.remove ch.id) := by
  rw [classify, matchedBefore, if_pos hid]
  simp only [bind, Except.bind, classifyAfter, if_neg hkind, hafter, hshown, if_true, pure,
    Except.pure]

/-- The row of a contract shows no links. -/
theorem ofImage_toRow (c : Contract) (source : LinkSource) :
    LinkSource.ofImage c.toRow source = source := by
  funext parent linkType
  rw [LinkSource.ofImage]
  cases parent.field? "id" <;> rfl

/-- A query is answered with the results for the contracts that it permits, and
    their ids are kept. -/
theorem answer_eq [TextLibrary] (hk : k.Sound) {schema : Schema} {options : QueryOptions}
    {limit : Nat} {q : Query} (hlimit : k.settings.limit options.limit = .ok limit)
    (hq : Query.compileMasked k.settings f.mask schema none options = .ok q)
    (id : String) :
    let answered := page (options.skip.getD 0) (some limit)
      ((k.store.ordered options).filter (k.permits f.mask schema))
    f.answer k id schema options
      = .ok (.dataset id (answered.map (k.resultFor q f.mask)),
        (answered.map Contract.id).foldl add f) := by
  intro answered
  obtain ⟨limit', -, hcompile⟩ := Kernel.compile_of_compileMasked hq
  have hrows := hk.run_eq hlimit (Kernel.compiles_of_compile hcompile) hq
  have hids : idsOf (answered.map (q.rowIn k.store.rowsLinked ∘ Contract.toRow))
      = answered.map Contract.id := by
    rw [idsOf, List.filterMap_map, ← List.filterMap_eq_map]
    refine List.filterMap_congr fun c _ => ?_
    have hid : (q.rowIn k.store.rowsLinked c.toRow).field? "id"
        = some (.string c.id) := Query.find?_columns hcompile (by decide)
    show ((q.rowIn k.store.rowsLinked c.toRow).field? "id").bind _ = _
    rw [hid]
    rfl
  simp only [answer, bind, Except.bind, hq, hrows, pure, Except.pure, List.map_map]
  exact congrArg (fun ids => Except.ok (_, ids.foldl add f)) hids

/-- A query that permits one stored contract is answered with the result for it. -/
theorem handle_of_single [TextLibrary] (hk : k.Sound) {schema : Schema} {q : Query} {c : Contract}
    (hq : Query.compileMasked k.settings f.mask schema none {} = .ok q)
    (h : k.store.contracts.filter (k.permits f.mask schema) = [c]) (id : String) :
    f.handle k (.query id schema {})
      = (some (.dataset id [k.resultFor q f.mask c]), f.add c.id) := by
  obtain ⟨limit, hlimit, -⟩ := Kernel.compile_of_compileMasked hq
  have hanswer := answer_eq hk hlimit hq id
  rw [Option.getD_none, Kernel.page_of_single hlimit h] at hanswer
  rw [handle, hanswer]
  rfl

open Kernel (card reader anonymous anonymousMask describing describingSchema guarded)

/-- The query for the slug of the card. -/
def cardsOnly : Query where
  tables := {}
  select := .empty
  filter := .equals ⟨.row "cards", ["slug"]⟩ (.string "card")
  joins := []
  options := {}

/-- What asks for the ids of the cards. -/
def cardIds : Schema := .asking ["slug"] [("id", "card"), ("slug", "card")]

/-- The ids of the cards are asked for, and another query cannot be followed. -/
def cardLog : List (Kernel × FeedRequest) :=
  [(guarded anonymous, .query "all" cardIds {}),
   (Kernel.empty, .follow (.bool true) { limit := some 0 })]

/-- The card gets another slug. -/
def cardMoved : Change :=
  ⟨"card", .update, none, some ({ card with slug := "moved" } : Contract).toRow⟩

/-- The feed keeps the card. -/
theorem serve_cardLog :
    let opened : Feed := { mask := .bool true, query := cardsOnly }
    opened.serve cardLog = opened.add "card" := by
  intro opened
  have sound := (Kernel.guarded_reachable anonymous).sound
  have hlimit : (guarded anonymous).settings.limit ({} : QueryOptions).limit
      = .ok 100 := rfl
  have hcompiles : (Mask.merge opened.mask cardIds).Compiles :=
    Validator.ofSchema_ok.mp ⟨_, rfl⟩
  obtain ⟨q, hq, -⟩ := Kernel.compileMasked_ok hlimit hcompiles none
  have hpermits (c : Contract) : (guarded anonymous).permits opened.mask cardIds c
      = (Mask.merge opened.mask cardIds).meets (guarded anonymous).store.rowsLinked
        .contract c.toRow :=
    (sound.meets_merge_eq hcompiles c).symm
  have honly : (guarded anonymous).store.contracts.filter
      ((guarded anonymous).permits opened.mask cardIds) = [card] := by
    have hcard : (guarded anonymous).permits opened.mask cardIds card = true :=
      hpermits card
    have hreader : (guarded anonymous).permits opened.mask cardIds (reader anonymous)
        = false := hpermits (reader anonymous)
    simp [Kernel.contracts_guarded Kernel.reread_anonymous, hcard, hreader]
  have hquery := handle_of_single sound hq honly "all"
  have hfollow : (opened.add "card").handle Kernel.empty
      (.follow (.bool true) { limit := some 0 })
        = (some (.failed _), opened.add "card") := rfl
  rw [cardLog, serve_cons, hquery]
  show ((opened.add "card").handle _ _).2 = _
  rw [hfollow]

/-- The card is known until it gets another slug, and is then reported as
    gone. -/
theorem matched_eq_known_card :
    let opened : Feed := { mask := .bool true, query := cardsOnly }
    "card" ∈ known (opened.reports cardLog)
      ∧ opened.reports (cardLog ++ [(Kernel.empty, .change cardMoved)])
        = opened.reports cardLog ++ [⟨.change cardMoved, some (.unmatch "card")⟩]
      ∧ "card" ∉ known (opened.reports
        (cardLog ++ [(Kernel.empty, .change cardMoved)])) := by
  intro opened
  have hserve : opened.serve cardLog = opened.add "card" := serve_cardLog
  have hclassify : (opened.serve cardLog).classify Kernel.empty cardMoved
      = .ok (some (.unmatch "card"), opened) := by
    rw [hserve]
    rfl
  have hshown : (opened.serve cardLog).shown Kernel.empty
      ({ card with slug := "moved" } : Contract).toRow = .ok none := by
    rw [hserve]
    rfl
  have htells : ∀ entry ∈ cardLog, Tells (.bool true) entry.2 :=
    List.forall_mem_cons.mpr
      ⟨⟨rfl, fun _ => by decide⟩, List.forall_mem_singleton.mpr trivial⟩
  obtain ⟨-, hsame, hchange⟩ := matched_eq_known (.bool true) cardsOnly cardLog
  obtain ⟨event, -, -, hknown⟩ := hchange Kernel.empty cardMoved
  refine ⟨?_, ?_, fun hmem => ?_⟩
  · rw [← hsame htells, hserve]
    exact List.mem_toFinset.mpr (List.mem_singleton_self "card")
  · rw [reports_snoc, report, handle, hclassify]
  · obtain ⟨-, image, himage, shown, hmatches⟩ :=
      (hknown _ hclassify (by decide)).mp hmem
    obtain rfl := Option.some.inj himage
    cases Except.ok.inj (hshown.symm.trans hmatches)

/-- A query for what has a certain name. -/
def named : Json :=
  .object
    [("properties", .object [("name", .object [("const", .string "Card")])]),
     ("required", .array [.string "name"])]

/-- The schema of the query. -/
def namedSchema : Schema := .asking ["name"] [("name", "Card")]

/-- The reader is updated and stays as it was. -/
def readerTouched : Change :=
  ⟨"reader", .update, some (reader anonymous).toRow, some (reader anonymous).toRow⟩

/-- The slug of the reader is asked for. -/
def readerLog : List (Kernel × FeedRequest) :=
  [(guarded anonymous, .query "all" (describingSchema ["slug"]) {})]

/-- A feed keeps a contract of which no report shows the id, and reports it as gone
    at the next change, although nothing told that it was there, and it did not
    match before the change either. -/
theorem unmatches_untold_reader :
    Kernel.Reachable (guarded anonymous)
      ∧ ∃ opened, start (guarded anonymous) "reader" named {} = .ok opened
        ∧ (opened.serve readerLog).matched = ["reader"]
        ∧ known (opened.reports readerLog) = ∅
        ∧ opened.reports (readerLog ++ [(guarded anonymous, .change readerTouched)])
          = opened.reports readerLog ++ [⟨.change readerTouched, some (.unmatch "reader")⟩]
        ∧ ¬(opened.serve readerLog).Matches (guarded anonymous) (reader anonymous).toRow := by
  have sound := (Kernel.guarded_reachable anonymous).sound
  have hlimit : (guarded anonymous).settings.limit ({} : QueryOptions).limit
      = .ok 100 := rfl
  have hfollowed : (Mask.merge anonymousMask namedSchema).Compiles :=
    Validator.ofSchema_ok.mp ⟨_, rfl⟩
  have hasked : (Mask.merge anonymousMask (describingSchema ["slug"])).Compiles :=
    Validator.ofSchema_ok.mp ⟨_, rfl⟩
  obtain ⟨q, hq, -⟩ := Kernel.compileMasked_ok hlimit hfollowed none
  obtain ⟨p, hp, -⟩ := Kernel.compileMasked_ok hlimit hasked none
  let opened : Feed := { mask := anonymousMask, query := q }
  -- the reader does not have the name, but it is in the answer
  have hnameless : (guarded anonymous).permits anonymousMask namedSchema
      (reader anonymous) = false := by
    rw [← sound.meets_merge_eq hfollowed]
    rfl
  have hreader : (guarded anonymous).permits anonymousMask (describingSchema ["slug"])
      (reader anonymous) = true := by
    rw [← sound.meets_merge_eq hasked]
    rfl
  have hcard : (guarded anonymous).permits anonymousMask (describingSchema ["slug"])
      card = false := by
    rw [Kernel.permits, Kernel.not_shows_card, Bool.false_and]
  have honly : (guarded anonymous).store.contracts.filter
      ((guarded anonymous).permits anonymousMask (describingSchema ["slug"]))
        = [reader anonymous] := by
    simp [Kernel.contracts_guarded Kernel.reread_anonymous, hreader, hcard]
  have hquery := handle_of_single (f := opened) sound hp honly "all"
  have hserve : opened.serve readerLog = opened.add "reader" := by
    rw [readerLog, serve_cons, hquery]
    rfl
  have hshown (f : Feed) (hf : f.query = q) : f.shown (guarded anonymous)
      (reader anonymous).toRow = .ok none := by
    rw [shown, ofImage_toRow, hf, sound.evaluate_row hq, hnameless, if_neg Bool.false_ne_true]
  have hclassify : (opened.serve readerLog).classify (guarded anonymous) readerTouched
      = .ok (some (.unmatch "reader"), (opened.add "reader").remove "reader") := by
    rw [hserve]
    have hkept : readerTouched.id ∈ (opened.add "reader").matched :=
      List.mem_singleton_self _
    exact classify_unmatch hkept (by decide) rfl (hshown (opened.add "reader") rfl)
  have hid : ((guarded anonymous).resultFor p anonymousMask
      (reader anonymous)).field? "id" = none := by
    by_contra hid
    obtain ⟨-, hforbids, -⟩ :=
      (Kernel.field?_resultFor_ne_none hp _ (by decide)).mp hid
    exact absurd hforbids (by decide)
  refine ⟨Kernel.guarded_reachable anonymous, opened,
    start_eq Kernel.mask_anonymous rfl hq, ?_, ?_, ?_, ?_⟩
  · rw [hserve]
    rfl
  · have hids : idsOf [(guarded anonymous).resultFor p anonymousMask (reader anonymous)]
        = [] := by
      simp [idsOf, Json.stringField?, hid]
    rw [readerLog, reports_cons, report, hquery]
    show ∅ ∪ (idsOf [_]).toFinset = ∅
    rw [hids]
    rfl
  · rw [reports_snoc, report, handle, hclassify]
  · rintro ⟨shown, hmatches⟩
    rw [hserve] at hmatches
    cases (hshown (opened.add "reader") rfl).symm.trans hmatches

end Feed

end LinkedContracts
