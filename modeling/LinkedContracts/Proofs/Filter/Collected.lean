import LinkedContracts.Proofs.Filter.Found

/-! # What evaluation collects

    Evaluation collects along the links of a filter that stand under no
    negation: the contracts at the other end that meet the filter of the link,
    and for each of them what this filter collects in turn.  Nothing else is
    collected, and nothing is lost except for a match of the same contract in
    the same place.

    A match is recorded once, whichever contract of its id came first, so that
    what is kept is told up to the id. -/

namespace LinkedContracts

/-- What a member of a list gives is in the result of a fold that drops
    nothing. -/
theorem exists_mem_foldl {α β : Type} {step : List β → α → List β} {P : β → Prop}
    (keeps : ∀ found a, ∀ b ∈ found, b ∈ step found a) {l : List α} {a : α} (ha : a ∈ l)
    (gives : ∀ found, ∃ b ∈ step found a, P b) (found : List β) :
    ∃ b ∈ l.foldl step found, P b := by
  have kept (l : List α) (found : List β) : ∀ b ∈ found, b ∈ l.foldl step found := by
    induction l generalizing found with
    | nil => exact fun _ hb => hb
    | cons c rest ih => exact fun b hb => ih (step found c) b (keeps found c b hb)
  induction l generalizing found with
  | nil => cases ha
  | cons c rest ih =>
      rcases List.mem_cons.mp ha with rfl | ha
      · obtain ⟨b, hb, hP⟩ := gives found
        exact ⟨b, kept rest _ b hb, hP⟩
      · exact ih ha (step found c)

namespace LinkMatch

/-- Matches of one join, below one contract, of contracts with one id. -/
structure Alike (m n : LinkMatch) : Prop where
  joined : m.joined = n.joined
  parent : m.parent = n.parent
  id : m.contract.stringField? "id" = n.contract.stringField? "id"

variable {found new : List LinkMatch} {m n o : LinkMatch}

theorem Alike.rfl : Alike m m := ⟨.refl _, .refl _, .refl _⟩

theorem Alike.trans (h : Alike m n) (h' : Alike n o) : Alike m o :=
  ⟨h.joined.trans h'.joined, h.parent.trans h'.parent, h.id.trans h'.id⟩

/-- A match whose contract has a text for its id agrees with those alike
    only. -/
theorem alike_of_agrees (hid : (m.contract.stringField? "id").isSome)
    (h : agrees m n = true) : Alike n m := by
  obtain ⟨id, hid⟩ := Option.isSome_iff_exists.mp hid
  obtain ⟨v, hv, hstring⟩ := Option.bind_eq_some_iff.mp hid
  obtain rfl : v = .string id := by
    cases v <;> simp_all [Json.asString?]
  simp only [agrees, hv, Bool.and_eq_true, beq_iff_eq] at h
  obtain ⟨⟨hjoined, hparent⟩, hsame⟩ := h
  refine ⟨hjoined.symm, hparent.symm, ?_⟩
  rw [hid, Json.stringField?]
  cases hw : n.contract.field? "id" with
  | none => simp [hw, sameId] at hsame
  | some w =>
      rw [hw] at hsame
      cases w <;> simp_all [sameId, Json.same, Json.equalBy, Json.asString?]

theorem subset_record (found : List LinkMatch) (m : LinkMatch) :
    ∀ n ∈ found, n ∈ record found m := by
  intro n hn
  rw [record]
  split
  · exact hn
  · exact List.mem_append_left _ hn

theorem subset_recordAll (found new : List LinkMatch) :
    ∀ n ∈ found, n ∈ recordAll found new := by
  induction new generalizing found with
  | nil => exact fun _ hn => hn
  | cons m rest ih => exact fun n hn => ih _ n (subset_record found m n hn)

/-- What is recorded is there, or a match alike. -/
theorem exists_mem_record (hid : (m.contract.stringField? "id").isSome)
    (found : List LinkMatch) : ∃ n ∈ record found m, Alike n m := by
  rw [record]
  split
  · next h =>
      obtain ⟨n, hn, hagrees⟩ := List.any_eq_true.mp h
      exact ⟨n, hn, alike_of_agrees hid hagrees⟩
  · exact ⟨m, by simp, .rfl⟩

theorem exists_mem_recordAll (hm : m ∈ new)
    (hid : (m.contract.stringField? "id").isSome) (found : List LinkMatch) :
    ∃ n ∈ recordAll found new, Alike n m :=
  exists_mem_foldl subset_record hm (exists_mem_record hid) found

end LinkMatch

open LinkMatch

theorem Outcome.exists_mem_foundAll {outcomes : List Outcome} {o : Outcome}
    (ho : o ∈ outcomes) {m : LinkMatch} (hm : m ∈ o.found)
    (hid : (m.contract.stringField? "id").isSome) :
    ∃ n ∈ foundAll outcomes, Alike n m := by
  have keeps (found : List LinkMatch) (o : Outcome) :
      ∀ n ∈ found, n ∈ recordAll found o.found := subset_recordAll found o.found
  exact exists_mem_foldl keeps ho (exists_mem_recordAll hm hid) []

namespace Filter

/-! ## Links under no negation -/

mutual

/-- The links of a filter that stand under no negation and below no other
    link. -/
def openLinks : Filter → List LinkTerm
  | conj fs | disj fs => openLinksAll fs
  | linked parent linkType joined f => [⟨parent, linkType, joined, f⟩]
  | _ => []

/-- The links of filters that stand under no negation and below no other
    link. -/
def openLinksAll : List Filter → List LinkTerm
  | [] => []
  | f :: rest => openLinks f ++ openLinksAll rest

end

theorem mem_openLinksAll {fs : List Filter} {x : LinkTerm} :
    x ∈ openLinksAll fs ↔ ∃ f ∈ fs, x ∈ f.openLinks := by
  induction fs with
  | nil => simp [openLinksAll]
  | cons f rest ih => simp [openLinksAll, ih]

mutual

/-- A filter asks rows only for links, and no members. -/
def Rowwise : Filter → Prop
  | conj fs | disj fs => AllRowwise fs
  | neg f | linked _ _ _ f => Rowwise f
  | each _ _ _ _ f => f.joins = []
  | _ => True

/-- Filters ask rows only for links. -/
def AllRowwise : List Filter → Prop
  | [] => True
  | f :: rest => Rowwise f ∧ AllRowwise rest

end

theorem allRowwise_iff {fs : List Filter} :
    AllRowwise fs ↔ ∀ f ∈ fs, f.Rowwise := by
  induction fs with
  | nil => simp [AllRowwise]
  | cons f rest ih => simp [AllRowwise, ih]

mutual

/-- The filter of a link of a filter that asks rows only. -/
theorem rowwise_of_mem : ∀ {f : Filter}, f.Rowwise → ∀ x ∈ f.openLinks,
    x.filter.Rowwise
  | conj fs, h, x, hx | disj fs, h, x, hx => rowwise_of_mem_all h x hx
  | linked _ _ _ f, h, x, hx => by
      obtain rfl := List.mem_singleton.mp hx
      exact h
  | neg _, _, _, hx | each _ _ _ _ _, _, _, hx | always, _, _, hx
  | never, _, _, hx | present _, _, _, hx | typeIs _ _, _, _, hx
  | equals _ _, _, _, hx | oneOf _ _, _, _, hx | pattern _ _, _, _, hx
  | bound _ _ _, _, _, hx | length _ _ _, _, _, hx | itemCount _ _ _, _, _, hx
  | fullText _ _, _, _, hx => nomatch hx

theorem rowwise_of_mem_all : ∀ {fs : List Filter}, AllRowwise fs →
    ∀ x ∈ openLinksAll fs, x.filter.Rowwise
  | f :: rest, h, x, hx => by
      rcases List.mem_append.mp hx with hx | hx
      · exact rowwise_of_mem h.1 x hx
      · exact rowwise_of_mem_all h.2 x hx

end

mutual

/-- The links under no negation are links of the filter, with all that is
    below them. -/
theorem linksWithin_of_mem (around : List String) : ∀ {f : Filter},
    ∀ x ∈ f.openLinks,
    (around, x) ∈ f.linksWithin around
      ∧ x.filter.linksWithin (x.joined :: around) ⊆ f.linksWithin around
  | conj fs, x, hx | disj fs, x, hx => linksWithinAll_of_mem around x hx
  | linked parent linkType joined f, x, hx => by
      obtain rfl := List.mem_singleton.mp hx
      exact ⟨List.mem_cons_self, List.subset_cons_self _ _⟩
  | neg _, _, hx | each _ _ _ _ _, _, hx | always, _, hx | never, _, hx
  | present _, _, hx | typeIs _ _, _, hx | equals _ _, _, hx | oneOf _ _, _, hx
  | pattern _ _, _, hx | bound _ _ _, _, hx | length _ _ _, _, hx
  | itemCount _ _ _, _, hx | fullText _ _, _, hx => nomatch hx

theorem linksWithinAll_of_mem (around : List String) : ∀ {fs : List Filter},
    ∀ x ∈ openLinksAll fs,
    (around, x) ∈ linksWithinAll around fs
      ∧ x.filter.linksWithin (x.joined :: around) ⊆ linksWithinAll around fs
  | f :: rest, x, hx => by
      rcases List.mem_append.mp hx with hx | hx
      · obtain ⟨hmem, hbelow⟩ := linksWithin_of_mem around x hx
        exact ⟨List.mem_append_left _ hmem,
          List.subset_append_of_subset_left _ hbelow⟩
      · obtain ⟨hmem, hbelow⟩ := linksWithinAll_of_mem around x hx
        exact ⟨List.mem_append_right _ hmem,
          List.subset_append_of_subset_right _ hbelow⟩

end

end Filter

/-! ## Steps along links -/

/-- A link leads from a row, bound to the name it starts from, to an active
    contract that is linked to the row and meets the filter of the link. -/
structure LinkTerm.Leads (links : Json → String → List Json) (x : LinkTerm)
    (b : Bindings) (row r : Json) : Prop where
  starts : b.lookup x.parent = some row
  linked : r ∈ links row x.linkType
  active : r.isActive = true
  met : x.filter.answer links ((x.joined, r) :: b) = true

/-- What is collected where a link leads: the contract it leads to, and what
    the filter of the link collects there. -/
def LinkTerm.Collects (links : Json → String → List Json) (x : LinkTerm)
    (b : Bindings) (row r : Json) (m : LinkMatch) : Prop :=
  m = ⟨x.joined, Filter.rowId row, r⟩
    ∨ m ∈ (x.filter.outcome links ((x.joined, r) :: b)).found

namespace Filter

variable {links : Json → String → List Json}

/-- Without links nothing is found. -/
theorem found_eq_nil {f : Filter} (h : f.joins = []) (b : Bindings) :
    (f.outcome links b).found = [] := by
  refine List.eq_nil_iff_forall_not_mem.mpr fun m hm => ?_
  obtain ⟨x, hx, -⟩ := foundBy_of_mem [] f hm
  rw [joins_eq [], List.map_eq_nil_iff] at h
  exact absurd (h ▸ hx) List.not_mem_nil

mutual

/-- What is found was collected where a link under no negation leads. -/
theorem collects_of_mem : ∀ {f : Filter} {b : Bindings} {m : LinkMatch},
    f.Rowwise → m ∈ (f.outcome links b).found →
    ∃ x ∈ f.openLinks, ∃ row r, x.Leads links b row r ∧ x.Collects links b row r m
  | conj fs, b, m, hf, h => by
      rw [outcome_conj] at h
      obtain ⟨o, ho, h⟩ := Outcome.mem_foundAll h
      exact collects_of_mem_all hf ho h
  | disj fs, b, m, hf, h => by
      rw [outcome_disj] at h
      obtain ⟨o, ho, h⟩ := Outcome.mem_foundAll h
      exact collects_of_mem_all hf ho h
  | neg f, b, m, _, h => by
      rw [outcome_neg] at h
      cases h
  | each p members quantifier name f, b, m, hf, h => by
      have hnone : (each p members quantifier name f).joins = [] := hf
      rw [found_eq_nil hnone] at h
      cases h
  | linked parent linkType joined f, b, m, _, h => by
      rw [outcome_linked] at h
      split at h
      · cases h
      · next row hrow =>
          obtain ⟨x, hx, hholds, h⟩ := mem_linkOutcome h
          obtain ⟨r, hr, rfl⟩ := List.mem_map.mp hx
          obtain ⟨hlinked, hactive⟩ := List.mem_filter.mp hr
          exact ⟨_, List.mem_singleton_self _, row, r,
            ⟨hrow, hlinked, hactive, hholds⟩, h⟩
  | always, _, _, _, h | never, _, _, _, h | present _, _, _, _, h
  | typeIs _ _, _, _, _, h | equals _ _, _, _, _, h | oneOf _ _, _, _, _, h
  | pattern _ _, _, _, _, h | bound _ _ _, _, _, _, h | length _ _ _, _, _, _, h
  | itemCount _ _ _, _, _, _, h | fullText _ _, _, _, _, h => nomatch h

theorem collects_of_mem_all : ∀ {fs : List Filter} {b : Bindings} {o : Outcome}
    {m : LinkMatch}, AllRowwise fs → o ∈ fs.map (fun f => f.outcome links b) →
    m ∈ o.found →
    ∃ x ∈ openLinksAll fs, ∃ row r, x.Leads links b row r ∧ x.Collects links b row r m
  | [], _, _, _, _, ho, _ => nomatch ho
  | f :: rest, b, o, m, hfs, ho, h => by
      rcases List.mem_cons.mp ho with rfl | ho
      · obtain ⟨x, hx, hm⟩ := collects_of_mem hfs.1 h
        exact ⟨x, List.mem_append_left _ hx, hm⟩
      · obtain ⟨x, hx, hm⟩ := collects_of_mem_all hfs.2 ho h
        exact ⟨x, List.mem_append_right _ hx, hm⟩

end

/-- Of a link is found what is collected where it leads. -/
theorem exists_mem_linkOutcome {x : LinkTerm} {b : Bindings} {row r : Json}
    {m : LinkMatch} (hleads : x.Leads links b row r)
    (hm : x.Collects links b row r m)
    (hid : (m.contract.stringField? "id").isSome) :
    ∃ n ∈ (linkOutcome x.joined row (((links row x.linkType).filter Json.isActive).map
      fun c => (c, x.filter.outcome links ((x.joined, c) :: b)))).found,
      Alike n m := by
  have hr : r ∈ (links row x.linkType).filter Json.isActive :=
    List.mem_filter.mpr ⟨hleads.linked, hleads.active⟩
  have hmet : (r, x.filter.outcome links ((x.joined, r) :: b))
      ∈ (((links row x.linkType).filter Json.isActive).map
        fun c => (c, x.filter.outcome links ((x.joined, c) :: b))).filter
          fun y => y.2.holds :=
    List.mem_filter.mpr ⟨List.mem_map_of_mem hr, hleads.met⟩
  refine exists_mem_foldl (fun found y n hn => ?_) hmet (fun found => ?_) []
  · exact subset_recordAll _ _ n (subset_record found _ n hn)
  · rcases hm with rfl | hm
    · obtain ⟨n, hn, hlike⟩ := exists_mem_record hid found
      exact ⟨n, subset_recordAll _ _ n hn, hlike⟩
    · exact exists_mem_recordAll hm hid _

variable {b : Bindings} {x : LinkTerm} {row r : Json} {m : LinkMatch}

mutual

/-- Where a link under no negation leads, all that is collected is found. -/
theorem exists_found_of_collects (hleads : x.Leads links b row r)
    (hm : x.Collects links b row r m) (hid : (m.contract.stringField? "id").isSome) :
    ∀ {f : Filter}, x ∈ f.openLinks → ∃ n ∈ (f.outcome links b).found, Alike n m
  | conj fs, hx => by
      rw [outcome_conj]
      exact exists_found_of_collects_all hleads hm hid hx
  | disj fs, hx => by
      rw [outcome_disj]
      exact exists_found_of_collects_all hleads hm hid hx
  | linked parent linkType joined f, hx => by
      obtain rfl := List.mem_singleton.mp hx
      have hrow : b.lookup parent = some row := hleads.starts
      simp only [outcome_linked, hrow]
      obtain ⟨n, hn, hlike⟩ := exists_mem_linkOutcome hleads hm hid
      exact ⟨n, hn, hlike⟩
  | neg _, hx | each _ _ _ _ _, hx | always, hx | never, hx | present _, hx
  | typeIs _ _, hx | equals _ _, hx | oneOf _ _, hx | pattern _ _, hx
  | bound _ _ _, hx | length _ _ _, hx | itemCount _ _ _, hx
  | fullText _ _, hx => nomatch hx

theorem exists_found_of_collects_all (hleads : x.Leads links b row r)
    (hm : x.Collects links b row r m) (hid : (m.contract.stringField? "id").isSome) :
    ∀ {fs : List Filter}, x ∈ openLinksAll fs →
    ∃ n ∈ Outcome.foundAll (fs.map fun f => f.outcome links b), Alike n m
  | fs, hx => by
      obtain ⟨f, hf, hx⟩ := mem_openLinksAll.mp hx
      obtain ⟨n, hn, hlike⟩ := exists_found_of_collects hleads hm hid hx
      obtain ⟨o, ho, hlike'⟩ := Outcome.exists_mem_foundAll
        (List.mem_map_of_mem (f := fun f : Filter => f.outcome links b) hf) hn
        (hlike.id ▸ hid)
      exact ⟨o, ho, hlike'.trans hlike⟩

end

end Filter

end LinkedContracts
