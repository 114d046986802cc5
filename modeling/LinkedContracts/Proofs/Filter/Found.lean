import LinkedContracts.Proofs.Filter.Answer
import LinkedContracts.Proofs.Filter.Links

/-! # What a filter finds

    Besides the answer, evaluation collects linked contracts.  The outcome
    has one equation for each kind of filter.

    Whatever is found was found by a link of the filter: it is an active
    contract at the other end of the link, and met the filter of the link. -/

namespace LinkedContracts

/-! ## Collecting -/

/-- Whatever a fold collects was there before, or some member of the list gave
    it. -/
theorem mem_of_mem_foldl {α β : Type} {step : List β → α → List β}
    {b : β} {gives : α → Prop}
    (h : ∀ found a, b ∈ step found a → b ∈ found ∨ gives a) {l : List α}
    {found : List β} (hb : b ∈ l.foldl step found) :
    b ∈ found ∨ ∃ a ∈ l, gives a := by
  induction l generalizing found with
  | nil => exact .inl hb
  | cons a rest ih =>
      rcases ih hb with hb | ⟨c, hc, hgives⟩
      · rcases h found a hb with hb | hgives
        · exact .inl hb
        · exact .inr ⟨a, List.mem_cons_self, hgives⟩
      · exact .inr ⟨c, List.mem_cons_of_mem a hc, hgives⟩

namespace LinkMatch

variable {found new : List LinkMatch} {m n : LinkMatch}

theorem mem_record (h : m ∈ record found n) : m ∈ found ∨ m = n := by
  rw [record] at h
  split at h
  · exact .inl h
  · exact (List.mem_append.mp h).imp_right List.mem_singleton.mp

theorem mem_recordAll (h : m ∈ recordAll found new) : m ∈ found ∨ m ∈ new := by
  have step (found : List LinkMatch) (n : LinkMatch) (h : m ∈ record found n) :
      m ∈ found ∨ m = n := mem_record h
  rcases mem_of_mem_foldl step h with h | ⟨n, hn, rfl⟩
  · exact .inl h
  · exact .inr hn

end LinkMatch

theorem Outcome.mem_foundAll {outcomes : List Outcome} {m : LinkMatch}
    (h : m ∈ foundAll outcomes) : ∃ o ∈ outcomes, m ∈ o.found := by
  have step (found : List LinkMatch) (o : Outcome)
      (h : m ∈ LinkMatch.recordAll found o.found) : m ∈ found ∨ m ∈ o.found :=
    LinkMatch.mem_recordAll h
  exact (mem_of_mem_foldl step h).resolve_left List.not_mem_nil

namespace Filter

variable {links : Json → String → List Json}

/-- Of a link is found each candidate that met the filter, and what was found
    below it. -/
theorem mem_linkOutcome {joined : String} {row : Json}
    {outcomes : List (Json × Outcome)} {m : LinkMatch}
    (h : m ∈ (linkOutcome joined row outcomes).found) :
    ∃ x ∈ outcomes, x.2.holds = true
      ∧ (m = ⟨joined, rowId row, x.1⟩ ∨ m ∈ x.2.found) := by
  have step (found : List LinkMatch) (x : Json × Outcome)
      (h : m ∈ LinkMatch.recordAll
        (LinkMatch.record found ⟨joined, rowId row, x.1⟩) x.2.found) :
      m ∈ found ∨ m = ⟨joined, rowId row, x.1⟩ ∨ m ∈ x.2.found := by
    rcases LinkMatch.mem_recordAll h with h | h
    · exact (LinkMatch.mem_record h).imp_right .inl
    · exact .inr (.inr h)
  obtain ⟨x, hx, h⟩ := (mem_of_mem_foldl step h).resolve_left List.not_mem_nil
  obtain ⟨hx, hholds⟩ := List.mem_filter.mp hx
  exact ⟨x, hx, hholds, h⟩

/-! ## Outcomes -/

theorem outcome_of_eval {f : Filter} {b : Bindings} {o : Outcome}
    (h : f.eval (.known links) b = .ok o) : f.outcome links b = o := by
  rw [outcome, h]

theorem outcome_conj (fs : List Filter) (b : Bindings) :
    (conj fs).outcome links b = .all (fs.map fun f => f.outcome links b) :=
  outcome_of_eval (by simp only [eval, evalAll_known]; rfl)

theorem outcome_disj (fs : List Filter) (b : Bindings) :
    (disj fs).outcome links b = .any (fs.map fun f => f.outcome links b) :=
  outcome_of_eval (by simp only [eval, evalAll_known]; rfl)

/-- What is found under a negation is dropped. -/
theorem outcome_neg (f : Filter) (b : Bindings) :
    (neg f).outcome links b = .plain (!f.answer links b) :=
  outcome_of_eval (by simp only [eval, eval_known]; rfl)

theorem outcome_each (p : ValuePath) (members : Members)
    (quantifier : Quantifier) (name : String) (f : Filter) (b : Bindings) :
    (each p members quantifier name f).outcome links b
      = match (b.resolve p).bind members.of?, quantifier with
        | none, _ => .plain (quantifier == .all)
        | some values, .all =>
            .all (values.map fun v => f.outcome links ((name, v) :: b))
        | some values, .some =>
            .any (values.map fun v => f.outcome links ((name, v) :: b)) := by
  refine outcome_of_eval ?_
  simp only [eval]
  cases (b.resolve p).bind members.of? with
  | none => rfl
  | some values =>
      simp only [mapM_ok fun v => eval_known f ((name, v) :: b)]
      cases quantifier <;> rfl

theorem outcome_linked (parent linkType joined : String) (f : Filter)
    (b : Bindings) :
    (linked parent linkType joined f).outcome links b
      = match b.lookup parent with
        | none => .plain false
        | some row => linkOutcome joined row
            (((links row linkType).filter Json.isActive).map
              fun c => (c, f.outcome links ((joined, c) :: b))) := by
  refine outcome_of_eval ?_
  simp only [eval]
  cases b.lookup parent with
  | none => rfl
  | some row =>
      have step (c : Json) : (f.eval (.known links) ((joined, c) :: b)).map (c, ·)
          = .ok (c, f.outcome links ((joined, c) :: b)) := by
        rw [eval_known]
        rfl
      simp only [LinkSource.known, mapM_ok step]
      rfl

/-! ## Where matches come from -/

/-- A match was found by a link. -/
structure FoundBy (links : Json → String → List Json) (m : LinkMatch)
    (x : LinkTerm) : Prop where
  joined : m.joined = x.joined
  /-- The contract is linked to some row, and active. -/
  linked : ∃ row, m.contract ∈ (links row x.linkType).filter Json.isActive
  /-- It met the filter of the link. -/
  met : ∃ b, x.filter.answer links ((x.joined, m.contract) :: b) = true

mutual

/-- What a filter finds, one of its links found. -/
theorem foundBy_of_mem (around : List String) : ∀ (f : Filter) {b : Bindings}
    {m : LinkMatch}, m ∈ (f.outcome links b).found →
    ∃ x ∈ f.linksWithin around, FoundBy links m x.2
  | conj fs, b, m, h => by
      rw [outcome_conj] at h
      obtain ⟨o, ho, h⟩ := Outcome.mem_foundAll h
      exact foundBy_of_mem_all around fs ho h
  | disj fs, b, m, h => by
      rw [outcome_disj] at h
      obtain ⟨o, ho, h⟩ := Outcome.mem_foundAll h
      exact foundBy_of_mem_all around fs ho h
  | neg f, b, m, h => by
      rw [outcome_neg] at h
      cases h
  | each p members quantifier name f, b, m, h => by
      rw [outcome_each] at h
      have member {values : List Json} (h : m ∈ Outcome.foundAll
          (values.map fun v => f.outcome links ((name, v) :: b))) :
          ∃ x ∈ f.linksWithin around, FoundBy links m x.2 := by
        obtain ⟨o, ho, h⟩ := Outcome.mem_foundAll h
        obtain ⟨v, -, rfl⟩ := List.mem_map.mp ho
        exact foundBy_of_mem around f h
      split at h
      · cases h
      · exact member h
      · exact member h
  | linked parent linkType joined f, b, m, h => by
      rw [outcome_linked] at h
      split at h
      · cases h
      · next row hrow =>
          obtain ⟨x, hx, hholds, h⟩ := mem_linkOutcome h
          obtain ⟨c, hc, rfl⟩ := List.mem_map.mp hx
          rcases h with rfl | h
          · exact ⟨_, List.mem_cons_self, rfl, ⟨row, hc⟩, ⟨b, hholds⟩⟩
          · obtain ⟨x, hx, hfound⟩ := foundBy_of_mem (joined :: around) f h
            exact ⟨x, List.mem_cons_of_mem _ hx, hfound⟩
  | always, _, _, h | never, _, _, h | present _, _, _, h | typeIs _ _, _, _, h
  | equals _ _, _, _, h | oneOf _ _, _, _, h | pattern _ _, _, _, h
  | bound _ _ _, _, _, h | length _ _ _, _, _, h | itemCount _ _ _, _, _, h
  | fullText _ _, _, _, h => nomatch h

theorem foundBy_of_mem_all (around : List String) : ∀ (fs : List Filter)
    {b : Bindings} {o : Outcome} {m : LinkMatch},
    o ∈ fs.map (fun f => f.outcome links b) → m ∈ o.found →
    ∃ x ∈ linksWithinAll around fs, FoundBy links m x.2
  | [], _, _, _, ho, _ => nomatch ho
  | f :: rest, b, o, m, ho, h => by
      rcases List.mem_cons.mp ho with rfl | ho
      · obtain ⟨x, hx, hfound⟩ := foundBy_of_mem around f h
        exact ⟨x, List.mem_append_left _ hx, hfound⟩
      · obtain ⟨x, hx, hfound⟩ := foundBy_of_mem_all around rest ho h
        exact ⟨x, List.mem_append_right _ hx, hfound⟩

end

end Filter

end LinkedContracts
